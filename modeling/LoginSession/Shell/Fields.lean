import LoginSession.Shell.Pattern

namespace LoginSession.Shell

open Host (Octets)

/-- A character of an expanded word. A hold takes no room but makes a field of nothing. -/
inductive Mark where
  | char (c : Char) (quoted : Bool)
  | hold
  deriving DecidableEq, Repr

namespace Mark

def char? : Mark → Option Char
  | .char c _ => some c
  | .hold => none

def text (marks : List Mark) : Octets := marks.filterMap char?

def ofText (quoted : Bool) (text : Octets) : List Mark := text.map fun c => .char c quoted

/-- The pattern that marked text is: what was quoted stands for itself. A backslash that was not
quoted already does that for the character after it. -/
def pattern (marks : List Mark) : Octets := go false marks
where
  go (afterBackslash : Bool) : List Mark → Octets
    | [] => []
    | .hold :: rest => go afterBackslash rest
    | .char c true :: rest => if afterBackslash then c :: go false rest else '\\' :: c :: go false rest
    | .char c false :: rest => c :: go (c = '\\') rest

end Mark

def fieldEnd : Char := '\x00'

inductive Division where
  | fixed
  | free
  | byArgument
  deriving DecidableEq, Repr

structure Region where
  marks : List Mark
  division : Division

namespace Region

def allMarks (regions : List Region) : List Mark := regions.flatMap (·.marks)

def textOf (regions : List Region) : Octets := Mark.text (allMarks regions)

end Region

/-- Fields under construction. `current` is the field that has been begun, backwards. -/
structure Fields where
  finished : List (List Mark) := []
  current : List Mark := []
  afterBlank : Bool := false
  room : Option Nat := none
  trimmed : Option (List Mark) := none
  division : Division := .fixed

namespace Fields

def add (f : Fields) (m : Mark) : Fields := { f with current := m :: f.current }

def isBlank (c : Char) : Bool := c = ' ' || c = '\t' || c = '\n' || c = fieldEnd

def close (f : Fields) (m : Mark) : Fields :=
  match f.room with
  | some (n + 2) =>
    { f with finished := f.current.reverse :: f.finished, current := [], room := some (n + 1) }
  | some _ => { f with room := some 0, trimmed := some f.current }.add m
  | none => { f with finished := f.current.reverse :: f.finished, current := [] }

def addLast (separates : Bool) (f : Fields) (c : Char) (m : Mark) : Fields :=
  if separates && isBlank c then { f with trimmed := some (f.trimmed.getD f.current) }.add m
  else
    { f with
      trimmed := if separates && f.afterBlank then f.trimmed else none
      afterBlank := false }.add m

/-- A character of a region that is divided. `follows` says that the region before was divided by
argument. -/
def step (separators : Octets) (follows : Bool) (division : Division) (f : Fields) (m : Mark) :
    Fields :=
  match m with
  | .hold => { f with afterBlank := false, current := m :: if f.afterBlank then [] else f.current }
  | .char c _ =>
    let separates := c = fieldEnd || (division = .free && separators.contains c)
    if f.room = some 0 then f.addLast separates c m
    else
      let blank := separates && isBlank c
      if f.afterBlank then
        if blank then { f with current := [] }
        else if separates then { f with current := [], afterBlank := false }
        else { f with current := [m], afterBlank := false }
      else if separates then
        let afterBlank := blank && !follows && division = .free
        if afterBlank && f.current.isEmpty then f
        else { f with afterBlank }.close m
      else f.add m

def region (separators : Octets) (f : Fields) (r : Region) : Fields :=
  match r.division with
  | .fixed => { f with current := r.marks.reverse ++ f.current }
  | division =>
    let follows := f.division = .byArgument
    r.marks.foldl (step separators follows division) { f with afterBlank := false, division }

/-- The last field. One that is empty counts only as the last of several arguments. -/
def finish (f : Fields) : List (List Mark) :=
  let current := (f.trimmed.getD f.current).reverse
  let last := if f.division = .byArgument || !current.isEmpty then [current] else []
  f.finished.reverse ++ last

def ofRegions (separators : Octets) (room : Option Nat) (regions : List Region) :
    List (List Mark) :=
  (regions.foldl (region separators) { room }).finish

end Fields

end LoginSession.Shell

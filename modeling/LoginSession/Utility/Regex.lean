import LoginSession.Host.Octets

namespace LoginSession.Utility

open Host (Octets)

inductive Edge where
  | lineStart
  | lineEnd
  | wordStart
  | wordEnd
  | wordEdge
  | notWordEdge
  deriving DecidableEq

inductive Regex where
  | empty
  | char (c : Char)
  | any
  | oneOf (negated : Bool) (set : Octets)
  | edge (e : Edge)
  | sequence (first second : Regex)
  | either (first second : Regex)
  | repeated (body : Regex) (least : Nat) (most : Option Nat)
  | group (number : Nat) (body : Regex)
  | again (number : Nat)

/-- Between two characters of a line: the one before, what comes after and how much that is. Text
that groups matched goes along. -/
structure Place where
  before : Option Char
  rest : Octets
  left : Nat
  groups : List (Nat × Octets) := []
  deriving DecidableEq

namespace Place

def start (line : Octets) : Place := ⟨none, line, line.length, []⟩

def next? (p : Place) : Option (Char × Place) :=
  match p.rest with
  | [] => none
  | c :: rest => some (c, { p with before := some c, rest, left := p.left - 1 })

end Place

namespace Regex

def isWordChar (c : Char) : Bool := c.isAlphanum || c = '_'

def Edge.holds (e : Edge) (p : Place) : Bool :=
  let before := p.before.any isWordChar
  let after := p.rest.head?.any isWordChar
  match e with
  | .lineStart => p.before.isNone
  | .lineEnd => p.rest.isEmpty
  | .wordStart => !before && after
  | .wordEnd => before && !after
  | .wordEdge => before != after
  | .notWordEdge => before == after

def ifNext (isGood : Char → Bool) (p : Place) : List Place :=
  match p.next? with
  | some (c, after) => if isGood c then [after] else []
  | none => []

def readAgain (fold : Char → Char) : Octets → Place → List Place
  | [], p => [p]
  | c :: text, p => (ifNext (fun d => fold c = fold d) p).flatMap (readAgain fold text)

def rounds (step : Place → List Place) : Nat → List Place → List Place
  | 0, places => places
  | n + 1, places => if places.isEmpty then [] else rounds step n (places.flatMap step).eraseDups

/-- What up to so many more rounds lead to, beside the places that have been reached already.
Another round is made only from new places. -/
def closure (step : Place → List Place) : Nat → List Place → List Place → List Place
  | 0, reached, _ => reached
  | fuel + 1, reached, latest =>
    match (latest.flatMap step).eraseDups.filter fun p => !reached.contains p with
    | [] => reached
    | new => closure step fuel (reached ++ new) new

def ends (fold : Char → Char) : Regex → Place → List Place
  | .empty, p => [p]
  | .char c, p => ifNext (fun d => fold c = fold d) p
  | .any, p => ifNext (fun _ => true) p
  | .oneOf negated set, p => ifNext (fun d => (set.map fold).contains (fold d) != negated) p
  | .edge e, p => if Edge.holds e p then [p] else []
  | .sequence first second, p => ((ends fold first p).flatMap (ends fold second)).eraseDups
  | .either first second, p => (ends fold first p ++ ends fold second p).eraseDups
  | .repeated body least most, p =>
    let needed := rounds (ends fold body) least [p]
    let fuel := match most with
      | some n => min (n - least) (p.left + 1)
      | none => p.left + 1
    closure (ends fold body) fuel needed needed
  | .group number body, p =>
    (ends fold body p).map fun after =>
      let text := p.rest.take (p.left - after.left)
      { after with groups := (number, text) :: after.groups.filter (·.1 ≠ number) }
  | .again number, p =>
    match p.groups.lookup number with
    | some text => readAgain fold text p
    | none => []

/-- Groups whose text is not asked for need not be kept. -/
def withoutGroups : Regex → Regex
  | .sequence first second => .sequence first.withoutGroups second.withoutGroups
  | .either first second => .either first.withoutGroups second.withoutGroups
  | .repeated body least most => .repeated body.withoutGroups least most
  | .group _ body => body.withoutGroups
  | r => r

def literal (text : Octets) : Regex := text.foldr (fun c r => .sequence (.char c) r) .empty

end Regex

end LoginSession.Utility

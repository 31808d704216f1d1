import LoginSession.Utility.OctetSet
import LoginSession.Utility.Regex

namespace LoginSession.Utility

open Host (Octets)

namespace RegexReader

inductive Token where
  | atom (r : Regex)
  | repeated (least : Nat) (most : Option Nat)
  | openGroup (number : Nat)
  | closeGroup
  | bar

def unmatchedBracket : Octets := "Unmatched [, [^, [:, [., or [=".toList

def badRange : Octets := "Invalid range end".toList

inductive Member where
  | char (c : Char)
  | named (name : Octets)
  | same (name : Octets)

def readName (delimiter : Char) : Octets → Octets → Option (Octets × Octets)
  | _, [] => none
  | taken, c :: rest =>
    if c = delimiter && rest.head? = some ']' then some (taken.reverse, rest.drop 1)
    else readName delimiter (c :: taken) rest

def readMember (text : Octets) : Except Octets (Member × Octets) :=
  match text with
  | [] => .error unmatchedBracket
  | '[' :: c :: rest =>
    if c = ':' || c = '.' || c = '=' then
      match readName c [] rest with
      | none => .error unmatchedBracket
      | some (name, after) =>
        if c = ':' then .ok (.named name, after)
        else if c = '=' then .ok (.same name, after)
        else
          match name with
          | [single] => .ok (.char single, after)
          | _ => .error "Invalid collation character".toList
    else .ok (.char '[', c :: rest)
  | c :: rest => .ok (.char c, rest)

def Member.set (m : Member) : Except Octets Octets :=
  match m with
  | .char c => .ok [c]
  | .same [c] => .ok [c]
  | .same _ => .error "Invalid collation character".toList
  | .named name =>
    match OctetSet.class? name with
    | some isMember => .ok (OctetSet.ofClass isMember)
    | none => .error "Invalid character class name".toList

def readMembers : Nat → Bool → Octets → Octets → Except Octets (Octets × Octets)
  | 0, _, _, _ => .error unmatchedBracket
  | fuel + 1, isFirst, taken, text => do
    match text with
    | ']' :: rest => if !isFirst then return (taken, rest)
    | '-' :: c :: _ => if !isFirst && c ≠ ']' then throw badRange
    | _ => pure ()
    let (low, rest) ← readMember text
    match rest with
    | [] | ['-'] => throw unmatchedBracket
    | '-' :: c :: after =>
      if c = ']' then readMembers fuel false (taken ++ (← low.set)) rest
      else
        match low, ← readMember (c :: after) with
        | .char low, (.char high, rest) =>
          if high < low then throw badRange
          else readMembers fuel false (taken ++ OctetSet.range low high) rest
        | .char _, _ => throw badRange
        | low, _ => readMembers fuel false (taken ++ (← low.set)) rest
    | rest => readMembers fuel false (taken ++ (← low.set)) rest

/-- Colons at both ends of a bracket expression without classes or ranges: someone has meant a
class. -/
def looksLikeClass (inner : Octets) : Bool :=
  match inner, inner.getLast? with
  | ':' :: rest, some ':' =>
    rest.dropLast.any (· ≠ ':') && !rest.contains '-' && !rest.contains '['
  | _, _ => false

def confusedClass : Octets := "character class syntax is [[:space:]], not [:space:]".toList

def readSet (text : Octets) : Except Octets (Regex × Octets × Bool) := do
  let (negated, inner) := match text with
    | '^' :: rest => (true, rest)
    | rest => (false, rest)
  if inner.isEmpty then throw "Invalid regular expression".toList
  let (set, after) ← readMembers (inner.length + 1) true [] inner
  let isConfusing := looksLikeClass (inner.take (inner.length - after.length - 1))
  return (.oneOf negated set, after, isConfusing)

def maxRounds : Nat := 32767

inductive Interval where
  | found (least : Nat) (most : Option Nat) (rest : Octets)
  | fault (text : Octets)
  | none

def badInterval : Octets := "Invalid content of \\\x7b\\\x7d".toList

def readBound (extended : Bool) : Octets → Octets → Option (Octets × Octets)
  | _, [] => none
  | taken, ',' :: rest => some (taken.reverse, ',' :: rest)
  | taken, '\x7d' :: rest =>
    if extended then some (taken.reverse, ['\x7d'] ++ rest)
    else readBound extended ('\x7d' :: taken) rest
  | taken, '\\' :: '\x7d' :: rest =>
    if extended then readBound extended ('\\' :: taken) ('\x7d' :: rest)
    else some (taken.reverse, ['\x7d'] ++ rest)
  | taken, c :: rest => readBound extended (c :: taken) rest

def natOf (digits : Octets) : Nat :=
  digits.foldl (fun n c => min (maxRounds + 1) (n * 10 + (c.toNat - 0x30))) 0

def readInterval (extended : Bool) (text : Octets) : Interval :=
  let strange (isCut : Bool) : Interval :=
    if extended then .none
    else if isCut then .fault "Unmatched \\\x7b".toList
    else .fault badInterval
  let finish (least : Nat) (most : Option Nat) (after : Octets) : Interval :=
    match after with
    | '\x7d' :: rest =>
      if most.any (· < least) then .fault badInterval
      else if maxRounds < most.getD least then .fault "Regular expression too big".toList
      else .found least most rest
    | _ => .fault badInterval
  match readBound extended [] text with
  | none => strange true
  | some (low, after) =>
    if !low.all Char.isDigit then strange false
    else
      match low, after with
      | _, ',' :: rest =>
        match readBound extended [] rest with
        | none => strange true
        | some (high, after) =>
          if !high.all Char.isDigit then strange false
          else finish (natOf low) (if high.isEmpty then none else some (natOf high)) after
      | [], _ => .fault badInterval
      | low, after => finish (natOf low) (some (natOf low)) after

/-- A pattern is cut into tokens first; faults of the notation are found there, the first one on the
left being what is reported. Tokens are kept backwards, the last one first. -/
structure Lexed where
  tokens : List Token := []
  openGroups : List Nat := []
  groups : Nat := 0
  warnings : List Octets := []
  isConfusing : Bool := false

namespace Lexed

def add (l : Lexed) (t : Token) : Lexed := { l with tokens := t :: l.tokens }

def addChar (l : Lexed) (c : Char) : Lexed := l.add (.atom (.char c))

def warn (l : Lexed) (text : String) : Lexed :=
  { l with
    warnings := l.warnings ++ ["warning: ".toList ++ text.toList ++ " at start of expression".toList] }

def openGroup (l : Lexed) : Lexed :=
  let number := l.groups + 1
  { l.add (.openGroup number) with openGroups := number :: l.openGroups, groups := number }

def closeGroup (l : Lexed) : Lexed :=
  { l.add .closeGroup with openGroups := l.openGroups.drop 1 }

def isAtStart (l : Lexed) : Bool := isStart l.tokens
where
  isStart : List Token → Bool
    | [] | .openGroup _ :: _ | .bar :: _ => true
    | .atom (.edge .lineStart) :: rest => isStart rest
    | _ => false

def isFresh (l : Lexed) : Bool :=
  match l.tokens with
  | [] | .openGroup _ :: _ | .bar :: _ => true
  | _ => false

end Lexed

def wordSet : Octets := OctetSet.ofClass Regex.isWordChar

def spaceSet : Octets := ((OctetSet.class? "space".toList).map OctetSet.ofClass).getD []

def escaped? (c : Char) : Option Regex :=
  match c with
  | '<' => some (.edge .wordStart)
  | '>' => some (.edge .wordEnd)
  | 'b' => some (.edge .wordEdge)
  | 'B' => some (.edge .notWordEdge)
  | '\x60' => some (.edge .lineStart)
  | '\'' => some (.edge .lineEnd)
  | 'w' => some (.oneOf false wordSet)
  | 'W' => some (.oneOf true wordSet)
  | 's' => some (.oneOf false spaceSet)
  | 'S' => some (.oneOf true spaceSet)
  | _ => none

/-- An operator that repeats what stands before it. Where nothing does it is dropped in the extended
notation and stands for itself in the basic one. -/
def repetition (extended : Bool) (l : Lexed) (c : Char) (least : Nat) (most : Option Nat) : Lexed :=
  if !l.isAtStart then l.add (.repeated least most)
  else if !extended then l.addChar c
  else if l.isFresh then l.warn (String.singleton c)
  else (l.warn (String.singleton c)).add (.repeated least most)

def interval (extended : Bool) (l : Lexed) (text : Octets) : Except Octets (Lexed × Octets) :=
  if l.isAtStart && !extended then .ok (l.addChar '\x7b', text)
  else
    match readInterval extended text with
    | .fault fault => if l.isAtStart then .ok (l.addChar '\x7b', text) else .error fault
    | .none => .ok (l.addChar '\x7b', text)
    | .found least most rest =>
      if l.isAtStart then .ok ((l.warn "\x7b...\x7d").add (.atom .empty), rest)
      else .ok (l.add (.repeated least most), rest)

def lexOne (extended : Bool) (l : Lexed) (c : Char) (rest : Octets) :
    Except Octets (Lexed × Octets) :=
  match c with
  | '[' => do
    let (set, after, isConfusing) ← readSet rest
    return ({ l.add (.atom set) with isConfusing := l.isConfusing || isConfusing }, after)
  | '.' => .ok (l.add (.atom .any), rest)
  | '*' => .ok (repetition extended l '*' 0 none, rest)
  | '^' =>
    .ok (if extended || l.isFresh then l.add (.atom (.edge .lineStart)) else l.addChar '^', rest)
  | '$' =>
    let ends := rest.isEmpty || ['\\', ')'].isPrefixOf rest || ['\\', '|'].isPrefixOf rest
    .ok (if extended || ends then l.add (.atom (.edge .lineEnd)) else l.addChar '$', rest)
  | '\\' =>
    match rest with
    | [] => .error "Trailing backslash".toList
    | d :: rest =>
      if '1' ≤ d && d ≤ '9' then
        let number := d.toNat - '0'.toNat
        if l.groups < number || l.openGroups.contains number then
          .error "Invalid back reference".toList
        else .ok (l.add (.atom (.again number)), rest)
      else
        match escaped? d with
        | some r => .ok (l.add (.atom r), rest)
        | none => if extended then .ok (l.addChar d, rest) else operator false d rest
  | c => if extended then operator true c rest else .ok (l.addChar c, rest)
where
  operator (extended : Bool) (c : Char) (rest : Octets) : Except Octets (Lexed × Octets) :=
    match c with
    | '(' => .ok (l.openGroup, rest)
    | ')' =>
      if !l.openGroups.isEmpty then .ok (l.closeGroup, rest)
      else if extended then .ok (l.addChar ')', rest)
      else .error "Unmatched ) or \\)".toList
    | '|' => .ok (l.add .bar, rest)
    | '+' => .ok (repetition extended l '+' 1 none, rest)
    | '?' => .ok (repetition extended l '?' 0 (some 1), rest)
    | '\x7b' => interval extended l rest
    | c => .ok (l.addChar c, rest)

def lex (extended : Bool) : Nat → Lexed → Octets → Except Octets Lexed
  | 0, l, _ => .ok l
  | _, l, [] =>
    if l.openGroups.isEmpty then .ok l else .error "Unmatched ( or \\(".toList
  | fuel + 1, l, c :: rest => do
    let (l, rest) ← lexOne extended l c rest
    lex extended fuel l rest

/-- An expression that has not ended: its group, what stands before the last bar, and what stands
after that, the last part first. -/
structure Level where
  group : Nat := 0
  before : Option Regex := none
  parts : List Regex := []

namespace Level

def sequence (v : Level) : Regex :=
  match v.parts with
  | [] => .empty
  | last :: others => others.foldl (fun r part => .sequence part r) last

def whole (v : Level) : Regex :=
  match v.before with
  | none => v.sequence
  | some r => .either r v.sequence

def add (v : Level) (r : Regex) : Level := { v with parts := r :: v.parts }

end Level

def build (outer : List Level) (v : Level) : List Token → Regex
  | [] => v.whole
  | .atom r :: rest => build outer (v.add r) rest
  | .repeated least most :: rest =>
    match v.parts with
    | [] => build outer v rest
    | last :: others => build outer { v with parts := .repeated last least most :: others } rest
  | .bar :: rest => build outer { v with before := some v.whole, parts := [] } rest
  | .openGroup group :: rest => build (v :: outer) { group } rest
  | .closeGroup :: rest =>
    match outer with
    | [] => build [] v rest
    | parent :: outer => build outer (parent.add (.group v.group v.whole)) rest

def refersBack (tokens : List Token) : Bool :=
  tokens.any fun token =>
    match token with
    | .atom (.again _) => true
    | _ => false

structure Read where
  regex : Regex
  warnings : List Octets := []
  isConfusing : Bool := false

def read (extended : Bool) (pattern : Octets) : Except Octets Read := do
  let l ← lex extended (pattern.length + 1) {} pattern
  let regex := build [] {} l.tokens.reverse
  let regex := if refersBack l.tokens then regex else regex.withoutGroups
  return { regex, warnings := l.warnings, isConfusing := l.isConfusing }

end RegexReader

end LoginSession.Utility

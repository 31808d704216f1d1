import LoginSession.Shell.Fields
import LoginSession.Shell.State

namespace LoginSession.Shell

open Host (Octets)

structure Manner where
  full : Bool := false
  quoted : Bool := false
  inBraces : Bool := false
  ofPath : Bool := false

inductive Halt where
  | fault (text : Octets)
  | wrongScript (text : Octets)
  /-- A command has to answer first. It sees what the expansion has assigned so far. -/
  | pending (body : Command) (state : State)

structure Expansion where
  state : State
  answers : List Octets

abbrev Expanding := ReaderT (Octets → Option Octets) (StateT Expansion (Except Halt))

namespace Expanding

def fail {α : Type} (text : Octets) : Expanding α := throw (.fault text)

def state : Expanding State := return (← get).state

def update (f : State → Except Octets State) : Expanding Unit := do
  match f (← state) with
  | .ok state => modify ({ · with state })
  | .error text => fail text

/-- The output of a command. One that is empty has none. -/
def answer : Command → Expanding Octets
  | .empty => return []
  | body => do
    let e ← get
    match e.answers with
    | first :: rest =>
      set { e with answers := rest }
      return first
    | [] => throw (.pending body e.state)

end Expanding

def isAllArguments (name : Octets) : Bool := name = ['@'] || name = ['*']

def argumentSeparator (s : State) (m : Manner) (name : Octets) : Option Char :=
  if m.full && m.quoted && name = ['@'] then some fieldEnd
  else
    match s.value? "IFS".toList with
    | none => some ' '
    | some ifs => if m.full && !m.quoted then some fieldEnd else ifs.head?

def parameterMarks? (s : State) (m : Manner) (name : Octets) : Option (List Mark) :=
  if isAllArguments name then
    let separator := (argumentSeparator s m name).toList.map fun c => Mark.char c m.quoted
    some ((s.arguments.map (Mark.ofText m.quoted)).intersperse separator).flatten
  else (s.parameter? name).map (Mark.ofText m.quoted)

def resultRegion (s : State) (m : Manner) (name : Octets) (marks : List Mark) : Region :=
  let division :=
    if !m.quoted then .free
    else if name = ['@'] && !s.arguments.isEmpty then .byArgument
    else .fixed
  ⟨marks, division⟩

def valueRegion (m : Manner) (value : Octets) : Region :=
  ⟨Mark.ofText m.quoted value, if m.quoted then .fixed else .free⟩

def literalRegion (m : Manner) (text : Octets) : Region :=
  ⟨Mark.ofText m.quoted text, if m.inBraces && !m.quoted then .free else .fixed⟩

def isArgumentEnd : Mark → Bool
  | .char c _ => c = fieldEnd
  | .hold => false

def divisions : List Mark → List (List Mark × List Mark)
  | [] => [([], [])]
  | m :: rest => ([], m :: rest) :: (divisions rest).map fun (a, b) => (m :: a, b)

def needsQuoting : Mark → Bool
  | .char c quoted =>
    (quoted && "!*?[=~:/-]\\".toList.contains c) || ('\x81' ≤ c && c ≤ '\x88')
  | .hold => false

def firstArgument (marks : List Mark) : List Mark := marks.takeWhile (!isArgumentEnd ·)

/-- What is left of a text when a pattern has taken off its shortest or longest beginning or end. Of
several arguments the pattern sees the first one, or the one in which an end lies. -/
def trim (full suffix longest : Bool) (pattern : Octets) (marks : List Mark) : List Mark :=
  let items := Pattern.ofText pattern
  let accepts (part : List Mark) : Bool := Pattern.accepts items (Mark.text (firstArgument part))
  let first := firstArgument marks
  let steps := divisions marks
  -- Quoted arguments are compared by a copy of the first one, which runs out with it.
  let copied := full && first.any needsQuoting
  let ofCopy := if copied then divisions first else steps
  let pairs :=
    if suffix = longest then (steps.zip ofCopy).take (first.length + 1)
    else steps.reverse.zip ofCopy.reverse
  if suffix then
    match pairs.find? fun (_, compared) => accepts compared.2 with
    | some ((kept, _), _) => kept
    | none => marks
  else
    match pairs.find? fun (_, compared) => accepts compared.1 with
    | some ((_, kept), _) => kept
    | none => marks

def tildeName (ofPath : Bool) (text : Octets) : Octets × Octets :=
  let isEnd (c : Char) : Bool := c = '/' || (ofPath && c = ':')
  (text.takeWhile (!isEnd ·), text.dropWhile (!isEnd ·))

def homeOf (name : Octets) : Expanding (Option Octets) := do
  if name.isEmpty then return (← Expanding.state).value? "HOME".toList
  else return (← read) name

/-- Text with its tildes: one that begins it, if any may, and those after colons in a path. What
follows the text, if anything, is no part of a name. -/
def tildeText (m : Manner) (isLast : Bool) : Nat → Bool → Octets → Octets → Expanding (List Region)
  | 0, _, taken, text => return [literalRegion m (taken.reverse ++ text)]
  | fuel + 1, mayBegin, taken, text => do
    match text with
    | [] => return if taken.isEmpty then [] else [literalRegion m taken.reverse]
    | '~' :: after =>
      let (name, rest) := tildeName m.ofPath after
      if mayBegin && (isLast || !rest.isEmpty) then
        match ← homeOf name with
        | some home =>
          let regions ← tildeText m isLast fuel false [] rest
          let before := if taken.isEmpty then [] else [literalRegion m taken.reverse]
          return before ++ ⟨Mark.ofText true home, .fixed⟩ :: regions
        | none => tildeText m isLast fuel false ('~' :: taken) after
      else tildeText m isLast fuel false ('~' :: taken) after
    | c :: rest => tildeText m isLast fuel (m.ofPath && c = ':') (c :: taken) rest

/-- All arguments in quotes make no field where there are none. -/
def isArgumentsAlone : List Part → Bool
  | [.parameter name .plain] => name = ['@']
  | _ => false

mutual

def expandPart (m : Manner) (mayBegin isLast : Bool) : Part → Expanding (List Region)
  | .text s =>
    if m.quoted then return [literalRegion m s]
    else tildeText m isLast (s.length + 1) mayBegin [] s
  | .escaped c => return [⟨[.char c true], .fixed⟩]
  | .single s => return [⟨.hold :: Mark.ofText true s ++ [.hold], .fixed⟩]
  | .double parts => do
    let regions ← expandParts { m with quoted := true } false parts
    if isArgumentsAlone parts then return regions
    else return ⟨[.hold], .fixed⟩ :: regions ++ [⟨[.hold], .fixed⟩]
  | .command body => do return [valueRegion m (← Expanding.answer body)]
  | .arithmetic parts => do
    let text := Region.textOf (← expandParts {} false parts)
    let s ← Expanding.state
    let scope : Arithmetic.Scope := ⟨s.value?, s.vars.isReadOnly, []⟩
    match Arithmetic.run scope (text.takeWhile (· ≠ fieldEnd)) with
    | .error fault => Expanding.fail fault
    | .ok (value, assigned) =>
      Expanding.update fun s => assigned.foldlM (fun s (name, value) => s.assign name value) s
      return [valueRegion m value]
  | .parameter name use => expandUse m name use

def expandUse (m : Manner) (name : Octets) : Use → Expanding (List Region)
  | .plain => do
    let s ← Expanding.state
    match parameterMarks? s m name with
    | some marks => return [resultRegion s m name marks]
    | none =>
      if s.isOn .noUnset then Expanding.fail (name ++ ": parameter not set".toList) else return []
  | .bad => Expanding.fail "Bad substitution".toList
  | .length => do
    let s ← Expanding.state
    match parameterMarks? s m name with
    | some marks =>
      return [resultRegion s m name (Mark.ofText m.quoted (Octets.ofNat marks.length))]
    | none =>
      if s.isOn .noUnset then Expanding.fail (name ++ ": parameter not set".toList)
      else return [resultRegion s m name [.char '0' m.quoted]]
  | .fallback kind colon word => do
    let s ← Expanding.state
    let present := (parameterMarks? s m name).filter fun marks => !colon || !marks.isEmpty
    match kind, present with
    | .useWordIfSet, none => return [resultRegion s m name []]
    | .useWordIfSet, some _ | .useWord, none => expandParts { m with inBraces := true } true word
    | .useWord, some marks | .assignWord, some marks | .complain, some marks =>
      return [resultRegion s m name marks]
    | .assignWord, none =>
      let value := Region.textOf (← expandParts {} true word)
      Expanding.update (·.assignChecked name value)
      let s ← Expanding.state
      return [resultRegion s m name ((parameterMarks? s m name).getD [])]
    | .complain, none =>
      let message := Region.textOf (← expandParts {} true word)
      let message :=
        if !word.isEmpty then message
        else if colon then "parameter not set or null".toList
        else "parameter not set".toList
      Expanding.fail (name ++ ": ".toList ++ message)
  | .trim suffix longest word => do
    let s ← Expanding.state
    match parameterMarks? s m name with
    | none =>
      if s.isOn .noUnset then Expanding.fail (name ++ ": parameter not set".toList) else return []
    | some marks =>
      let regions ← expandParts {} true word
      let pattern := Mark.pattern (Region.allMarks regions)
      return [resultRegion s m name (trim m.full suffix longest pattern marks)]

def expandParts (m : Manner) (mayBegin : Bool) : List Part → Expanding (List Region)
  | [] => return []
  | part :: rest => do
    let regions ← expandPart m mayBegin rest.isEmpty part
    return regions ++ (← expandParts m false rest)

end

def expandRegions (word : Word) : Expanding (List Region) :=
  expandParts { full := true } true word

def expandText (word : Word) : Expanding Octets :=
  return Region.textOf (← expandParts {} true word)

def expandValue (word : Word) : Expanding Octets :=
  return Region.textOf (← expandParts { ofPath := true } true word)

def expandPattern (word : Word) : Expanding Octets :=
  return Mark.pattern (Region.allMarks (← expandParts {} true word))

def expandQuoted (word : Word) : Expanding Octets :=
  return Region.textOf (← expandParts { quoted := true } false word)

/-- A word that begins like an assignment. After the equals sign it is expanded like the value of
one, and it stays a single field. -/
def expandAssignment (word : Word) : Expanding Octets := do
  match word with
  | .text s :: rest =>
    let name := s.takeWhile (· ≠ '=') ++ ['=']
    let value := s.drop name.length
    let parts := if value.isEmpty then rest else .text value :: rest
    return name ++ (← expandValue parts)
  | word => expandValue word

end LoginSession.Shell

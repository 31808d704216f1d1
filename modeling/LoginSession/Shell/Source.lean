import LoginSession.Shell.Tree
import LoginSession.Text.Cut

namespace LoginSession.Shell

open Host (Octets)

def isNameStart (c : Char) : Bool := c.isAlpha || c = '_'

def isNameChar (c : Char) : Bool := c.isAlphanum || c = '_'

def isName (s : Octets) : Bool :=
  match s with
  | [] => false
  | c :: rest => isNameStart c && rest.all isNameChar

def isMeta (c : Char) : Bool :=
  c = ' ' || c = '\t' || c = '\n' || c = ';' || c = '&' || c = '|' || c = '<' || c = '>' ||
    c = '(' || c = ')'

def isSpecialParameter (c : Char) : Bool :=
  c = '@' || c = '*' || c = '#' || c = '?' || c = '-' || c = '$' || c = '!' || c.isDigit

def reservedWords : List String :=
  ["!", "case", "do", "done", "elif", "else", "esac", "fi", "for", "if", "in", "then", "until",
   "while", "\x7b", "\x7d"]

def isReserved (word : Octets) : Bool := reservedWords.contains (String.ofList word)

/-- The text of an alias that stands in place of its name. It ends where no more than `mark`
characters are left to read. -/
structure Insertion where
  name : Octets
  mark : Nat
  endsBlank : Bool
  deriving DecidableEq

/-- `insertions` are the aliases whose text is being read, the innermost first. -/
structure Source where
  rest : Octets
  line : Nat := 1
  insertions : List Insertion := []

/-- Commands whose failures end the shell and whose assignments stay. No function may bear the name
of one. -/
def specialBuiltins : List String :=
  [":", ".", "break", "continue", "eval", "exec", "exit", "export", "local", "readonly", "return",
   "set", "shift", "times", "trap", "unset"]

def isSpecialBuiltin (name : Octets) : Bool := specialBuiltins.contains (String.ofList name)

structure RedirectHead where
  descriptor : Nat
  kind : RedirectKind
  stripTabs : Bool := false

inductive Token where
  | finish
  | newline
  | operator (text : String)
  | redirection (head : RedirectHead)
  | word (parts : Word) (isQuoted : Bool)
  | reserved (text : String)

namespace Token

def description : Token → String
  | .finish => "end of file"
  | .newline => "newline"
  | .operator text | .reserved text => "\"" ++ text ++ "\""
  | .redirection _ => "redirection"
  | .word .. => "word"

def isOperator (text : String) : Token → Bool
  | .operator other => text = other
  | _ => false

def isReserved (text : String) : Token → Bool
  | .reserved other => text = other
  | _ => false

def endsList : Token → Bool
  | .finish | .operator ")" | .operator ";;" => true
  | .reserved text =>
    ["\x7d", "do", "done", "elif", "else", "esac", "fi", "then"].contains text
  | _ => false

end Token

structure Checks where
  newlines : Bool := false
  reserved : Bool := false
  aliases : Bool := false

structure Awaited where
  number : Nat
  delimiter : Octets
  stripTabs : Bool
  isQuoted : Bool

/-- What the reader remembers. Once the end of the text has been touched more text might have
changed what was read; a word is kept until a token that is one takes its place. -/
structure ReaderState where
  source : Source
  aliases : List (Octets × Octets) := []
  token : Token := .finish
  isPushedBack : Bool := false
  word : Word := []
  checkAlias : Bool := false
  awaited : List Awaited := []
  documents : Documents := []
  nextDocument : Nat := 0
  delimiter : Option (Octets × Bool) := none
  isDelimited : Bool := false
  isDocument : Bool := false
  isLiteral : Bool := false
  touchedEnd : Bool := false

structure ReadError where
  line : Nat
  text : String
  touchedEnd : Bool

abbrev Reading := StateT ReaderState (Except ReadError)

namespace Reading

def fail {α : Type} (text : String) : Reading α := do
  let s ← get
  throw ⟨s.source.line, text, s.touchedEnd⟩

def rest : Reading Octets := return (← get).source.rest

def hasMark (n : Nat) (i : Insertion) : Bool := i.mark = n && i.endsBlank

def inUse (n : Nat) (i : Insertion) : Bool := i.mark ≤ n

def setRest (rest : Octets) : Reading Unit :=
  modify fun s =>
    let insertions :=
      if s.source.insertions.isEmpty then [] else s.source.insertions.filter (inUse rest.length)
    { s with source := { s.source with rest, insertions } }

def nextLine : Reading Unit := modify fun s => { s with source.line := s.source.line + 1 }

def noticeBlank : Reading Unit := do
  let s ← get
  if s.source.insertions.isEmpty then return
  else if s.source.insertions.any (hasMark s.source.rest.length) then
    set { s with checkAlias := true }

def peekRaw : Reading (Option Char) := do
  let s ← get
  if s.isDelimited then return none
  else
    noticeBlank
    match s.source.rest with
    | c :: _ => return some c
    | [] =>
      modify fun s => { s with touchedEnd := true }
      return none

def joined : Octets → Nat → Octets × Nat
  | '\\' :: '\n' :: rest, n => joined rest (n + 1)
  | rest, n => (rest, n)

def peek : Reading (Option Char) := do
  match ← peekRaw with
  | some '\\' =>
    match joined (← rest) 0 with
    | (_, 0) => return some '\\'
    | (after, n) =>
      setRest after
      modify fun s => { s with source.line := s.source.line + n }
      peekRaw
  | c => return c

def skip : Reading Unit := do setRest ((← rest).drop 1)

def takeIf (c : Char) : Reading Bool := do
  if (← peek) = some c then
    skip
    return true
  else return false

def takeWhile (test : Char → Bool) : Nat → Octets → Reading Octets
  | 0, taken => return taken.reverse
  | fuel + 1, taken => do
    match ← peek with
    | some c =>
      if test c then
        skip
        takeWhile test fuel (c :: taken)
      else return taken.reverse
    | none => return taken.reverse

/-- Takes characters that hold no backslash and for which a test holds, all at once. -/
def takeRun (test : Char → Bool) : Reading Octets := do
  let s ← get
  if s.isDelimited then return []
  else
    let run := s.source.rest.takeWhile test
    if !run.isEmpty then setRest (s.source.rest.drop run.length)
    return run

def unexpected {α : Type} : Reading α := do fail ((← get).token.description ++ " unexpected")

def unexpectedFor {α : Type} (wanted : String) : Reading α := do
  fail ((← get).token.description ++ " unexpected (expecting " ++ wanted ++ ")")

def pushBack : Reading Unit := modify fun s => { s with isPushedBack := true }

def setToken (token : Token) : Reading Token := do
  modify fun s => { s with token }
  return token

def meetsDelimiter : Reading Bool := do
  let s ← get
  match s.delimiter with
  | none => return false
  | some (delimiter, stripTabs) =>
    let text := if stripTabs then s.source.rest.dropWhile (· = '\t') else s.source.rest
    setRest text
    if delimiter.isPrefixOf text then
      match text.drop delimiter.length with
      | [] =>
        setRest []
        nextLine
        modify fun s => { s with isDelimited := true, touchedEnd := true }
        return true
      | '\n' :: after =>
        setRest after
        nextLine
        modify fun s => { s with isDelimited := true }
        return true
      | _ => return false
    else return false

def insert (name text : Octets) : Reading Unit :=
  modify fun s =>
    let endsBlank := text.getLast? = some ' ' || text.getLast? = some '\t'
    let insertion : Insertion := ⟨name, s.source.rest.length, endsBlank⟩
    { s with
      source := { s.source with
        rest := text ++ s.source.rest
        insertions := insertion :: s.source.insertions } }

def alias? (name : Octets) : Reading (Option Octets) := do
  let s ← get
  match s.aliases.lookup name with
  | none => return none
  | some text =>
    return if s.source.insertions.any (·.name = name) then none else some text

end Reading

end LoginSession.Shell

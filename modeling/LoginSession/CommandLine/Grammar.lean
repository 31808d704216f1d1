import LoginSession.CommandLine.Words

namespace LoginSession.CommandLine

/-- Inside double quotes a backslash takes the character after it along, whichever it is. -/
inductive DoublePiece where
  | plain (c : Char)
  | escape (c : Char)
  deriving DecidableEq, Repr

namespace DoublePiece

def IsProper : DoublePiece → Prop
  | plain c => c ∉ ['"', '\\']
  | escape _ => True

def text : DoublePiece → List Char
  | plain c => [c]
  | escape c => ['\\', c]

def value : DoublePiece → List Char
  | plain c => [c]
  | escape c => if c = '\n' then [] else if c ∈ ['$', '\x60', '"', '\\'] then [c] else ['\\', c]

end DoublePiece

inductive Segment where
  | plain (c : Char)
  | escape (c : Char)
  | single (text : List Char)
  | double (pieces : List DoublePiece)
  deriving DecidableEq, Repr

namespace Segment

/-- A `#` is plain only where a word is open. -/
def IsProper (wordOpen : Bool) : Segment → Prop
  | plain c => c ∉ [' ', '\t', '\n', '\\', '\'', '"'] ∧ (c = '#' → wordOpen = true)
  | escape c => c ≠ '\n'
  | single text => '\'' ∉ text
  | double pieces => ∀ p ∈ pieces, p.IsProper

def text : Segment → List Char
  | plain c => [c]
  | escape c => ['\\', c]
  | single text => '\'' :: text ++ ['\'']
  | double pieces => '"' :: pieces.flatMap (·.text) ++ ['"']

def value : Segment → List Char
  | plain c | escape c => [c]
  | single text => text
  | double pieces => pieces.flatMap (·.value)

end Segment

def continued (count : Nat) : List Char := (List.replicate count ['\\', '\n']).flatten

/-- Any number of continuations may stand before each segment but the first. -/
structure Word where
  first : Segment
  rest : List (Nat × Segment) := []
  deriving DecidableEq, Repr

namespace Word

def IsProper (w : Word) : Prop := w.first.IsProper false ∧ ∀ s ∈ w.rest, s.2.IsProper true

def restText (rest : List (Nat × Segment)) : List Char :=
  rest.flatMap fun s => continued s.1 ++ s.2.text

def restValue (rest : List (Nat × Segment)) : List Char := rest.flatMap (·.2.value)

def text (w : Word) : List Char := w.first.text ++ restText w.rest

def value (w : Word) : List Char := w.first.value ++ restValue w.rest

end Word

/-- A line is a sequence of items, and a word is a run of segments. Each has the text that it is
written as; a word has the value that it denotes as well. -/
inductive Item where
  | blank (c : Char)
  | comment (text : List Char)
  | continuation
  | word (w : Word)
  deriving DecidableEq, Repr

namespace Item

def text : Item → List Char
  | blank c => [c]
  | comment text => '#' :: text
  | continuation => ['\\', '\n']
  | word w => w.text

def value? : Item → Option (List Char)
  | word w => some w.value
  | _ => none

end Item

namespace Line

def text (items : List Item) : List Char := items.flatMap (·.text)

def words (items : List Item) : List (List Char) := items.filterMap (·.value?)

/-- Comments and words go as far as they can: a comment to the end of its line, a word to the next
blank. A continuation neither opens nor closes a word. -/
def Follows : (wordOpen : Bool) → List Item → Prop
  | _, [] => True
  | _, .blank c :: rest => c ∈ [' ', '\t', '\n'] ∧ Follows false rest
  | wordOpen, .comment text :: rest =>
    wordOpen = false ∧ '\n' ∉ text ∧ (rest = [] ∨ rest.head? = some (.blank '\n')) ∧
      Follows false rest
  | wordOpen, .continuation :: rest => Follows wordOpen rest
  | wordOpen, .word w :: rest => wordOpen = false ∧ w.IsProper ∧ Follows true rest

def IsProper (items : List Item) : Prop := Follows false items

def EndsInComment (items : List Item) : Prop := ∃ text, items.getLast? = some (.comment text)

/-- The words that a text derives, if it is a line of the grammar from end to end. -/
def Derives (cs : List Char) (values : List (List Char)) : Prop :=
  ∃ items, IsProper items ∧ text items = cs ∧ words items = values

def IsCommented (cs : List Char) : Prop :=
  ∃ items, IsProper items ∧ EndsInComment items ∧ text items = cs

/-- A line after which anything may follow, because it does not end in a comment. -/
def Leads (cs : List Char) : Prop := ∃ items, IsProper items ∧ ¬EndsInComment items ∧ text items = cs

/-- A text that begins a segment and does not end it, with the error that tells of it. The error may
ask for the position at which the segment begins. -/
inductive Unfinished : List Char → (Nat → SplitError) → Prop where
  | backslash : Unfinished ['\\'] fun _ => .trailingBackslash
  | single {inside : List Char} (unclosed : '\'' ∉ inside) :
    Unfinished ('\'' :: inside) .unterminatedSingleQuote
  | double {pieces : List DoublePiece} {last : List Char} (proper : ∀ p ∈ pieces, p.IsProper)
    (atEnd : last = [] ∨ last = ['\\']) :
    Unfinished ('"' :: pieces.flatMap (·.text) ++ last) .unterminatedDoubleQuote

end Line

end LoginSession.CommandLine

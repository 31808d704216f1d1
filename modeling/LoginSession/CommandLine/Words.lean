namespace LoginSession.CommandLine

/-- Positions are byte offsets of the quote that was never closed. -/
inductive SplitError where
  | empty
  | unterminatedSingleQuote (position : Nat)
  | unterminatedDoubleQuote (position : Nat)
  | trailingBackslash
  deriving DecidableEq, Repr

def SplitError.message : SplitError → String
  | .empty => "command line is empty"
  | .unterminatedSingleQuote p => s!"unterminated single quote starting at byte {p}"
  | .unterminatedDoubleQuote p => s!"unterminated double quote starting at byte {p}"
  | .trailingBackslash => "command line ends with a backslash"

def isSeparator (c : Char) : Bool := c = ' ' || c = '\t' || c = '\n'

def isDoubleQuoteEscape (c : Char) : Bool := c = '$' || c = '\x60' || c = '"' || c = '\\'

/-- Where the scanner stands. An escape remembers whether it began inside a word, because a
backslash-newline neither opens nor closes one. -/
inductive Mode where
  | gap
  | word
  | comment
  | escape (inWord : Bool)
  | single (position : Nat)
  | double (position : Nat)
  | doubleEscape (position : Nat)
  deriving DecidableEq, Repr

/-- Words and characters are kept backwards, the last one first. -/
structure Scanner where
  words : List (List Char) := []
  word : List Char := []
  mode : Mode := .gap
  offset : Nat := 0
  deriving DecidableEq, Repr

namespace Scanner

def keep (s : Scanner) (c : Char) (mode : Mode) : Scanner :=
  { s with word := c :: s.word, mode }

def close (s : Scanner) : Scanner :=
  { s with words := s.word.reverse :: s.words, word := [], mode := .gap }

def stepPlain (s : Scanner) (c : Char) (inWord : Bool) : Scanner :=
  if isSeparator c then if inWord then s.close else s
  else if c = '#' ∧ inWord = false then { s with mode := .comment }
  else if c = '\\' then { s with mode := .escape inWord }
  else if c = '\'' then { s with mode := .single s.offset }
  else if c = '"' then { s with mode := .double s.offset }
  else s.keep c .word

def stepMode (s : Scanner) (c : Char) : Scanner :=
  match s.mode with
  | .gap => s.stepPlain c false
  | .word => s.stepPlain c true
  | .comment => if c = '\n' then { s with mode := .gap } else s
  | .escape inWord =>
    if c = '\n' then { s with mode := if inWord then .word else .gap } else s.keep c .word
  | .single p => if c = '\'' then { s with mode := .word } else s.keep c (.single p)
  | .double p =>
    if c = '"' then { s with mode := .word }
    else if c = '\\' then { s with mode := .doubleEscape p }
    else s.keep c (.double p)
  | .doubleEscape p =>
    if c = '\n' then { s with mode := .double p }
    else if isDoubleQuoteEscape c then s.keep c (.double p)
    else (s.keep '\\' (.double p)).keep c (.double p)

def step (s : Scanner) (c : Char) : Scanner :=
  { s.stepMode c with offset := s.offset + c.utf8Size }

def finish (s : Scanner) : Except SplitError (List (List Char)) :=
  match s.mode with
  | .gap | .comment => .ok s.words.reverse
  | .word => .ok s.close.words.reverse
  | .escape _ => .error .trailingBackslash
  | .single p => .error (.unterminatedSingleQuote p)
  | .double p | .doubleEscape p => .error (.unterminatedDoubleQuote p)

end Scanner

def scan (cs : List Char) : Scanner := cs.foldl Scanner.step {}

def splitChars (cs : List Char) : Except SplitError (List (List Char)) :=
  match (scan cs).finish with
  | .ok [] => .error .empty
  | result => result

/-- Blanks separate words; single quotes keep everything; double quotes keep everything but a few
escapes; a backslash keeps the next character; a `#` where no word is open starts a comment. Nothing
is expanded. -/
def split (command : String) : Except SplitError (List String) :=
  (splitChars command.toList).map (·.map String.ofList)

theorem foldl_step_append (s : Scanner) (a b : List Char) :
    (a ++ b).foldl Scanner.step s = b.foldl Scanner.step (a.foldl Scanner.step s) :=
  List.foldl_append

end LoginSession.CommandLine

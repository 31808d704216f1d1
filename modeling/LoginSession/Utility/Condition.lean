import LoginSession.Host.Files
import LoginSession.Utility.Quoting

namespace LoginSession.Utility

open Host (Octets Node)
open Host.Files (View)

inductive ConditionFault where
  | number (word : Octets)
  | operator (word : Octets)
  | unary (word : Octets)
  | missing (word : Octets)
  | extra (word : Octets)
  | lengths (operator : Octets)
  | closing (found : Option Octets)

namespace Condition

def numberOperators : List String := ["-eq", "-ne", "-lt", "-le", "-gt", "-ge"]

def fileOperators : List String := ["-nt", "-ot", "-ef"]

def isBinary (word : Octets) : Bool :=
  (["=", "!=", "=="] ++ numberOperators ++ fileOperators).contains (String.ofList word)

def isSpace (c : Char) : Bool := c = ' ' || ('\t' ≤ c && c ≤ '\x0d')

def readNumber (word : Octets) : Except ConditionFault Int :=
  let text := word.dropWhile isSpace
  let (negative, digits) := match text with
    | '-' :: rest => (true, rest)
    | '+' :: rest => (false, rest)
    | rest => (false, rest)
  let n : Int := (digits.takeWhile Char.isDigit).foldl (fun n c => n * 10 + (c.toNat - 0x30 : Nat)) 0
  if digits.head?.any Char.isDigit && (digits.dropWhile Char.isDigit).all isSpace then
    .ok (if negative then -n else n)
  else .error (.number word)

def compare (operator : String) (l r : Int) : Bool :=
  match operator with
  | "-eq" => l = r
  | "-ne" => l ≠ r
  | "-lt" => l < r
  | "-le" => l ≤ r
  | "-gt" => l > r
  | _ => l ≥ r

def isNewer (view : View) (left right : Octets) : Bool :=
  match view.place? left, view.place? right with
  | some l, some r => view.changed r < view.changed l
  | some _, none => true
  | none, _ => false

def compareFiles (view : View) (operator : String) (left right : Octets) : Bool :=
  match operator with
  | "-nt" => isNewer view left right
  | "-ot" => isNewer view right left
  | _ =>
    match view.place? left, view.place? right with
    | some l, some r => l = r
    | _, _ => false

structure Operand where
  text : Octets
  isLength : Bool := false

def Operand.number (o : Operand) : Except ConditionFault Int :=
  if o.isLength then .ok o.text.length else readNumber o.text

def binary (view : View) (operator : Octets) (left right : Operand) : Except ConditionFault Bool :=
  let name := String.ofList operator
  if numberOperators.contains name then do
    return compare name (← left.number) (← right.number)
  else if fileOperators.contains name then
    if left.isLength || right.isLength then .error (.lengths operator)
    else .ok (compareFiles view name left.text right.text)
  else .ok ((left.text = right.text) = (name ≠ "!="))

/-- Tests of a single operand, by their letters. None if there is no such test. -/
def unary? (view : View) (letter : Char) (word : Octets) : Option Bool :=
  let node := view.node? word
  match letter with
  | 'n' => some !word.isEmpty
  | 'z' => some word.isEmpty
  | 'e' | 'r' | 'w' | 'O' | 'G' => some node.isSome
  | 'f' => some (node.any fun
      | .file _ | .program _ => true
      | _ => false)
  | 'd' => some (node == some .directory)
  | 'x' => some (node.any fun
      | .directory | .program _ => true
      | _ => false)
  | 's' => some (node.any fun
      | .file content => !content.isEmpty
      | .program _ | .directory => true
      | _ => false)
  | 'c' => some (node.any fun
      | .null | .zero | .full | .terminal => true
      | _ => false)
  | 'p' => some (node == some .pipe)
  | 'h' | 'L' => some (view.isLink word)
  | 'k' => some ((view.place? word).any fun path =>
      path = ["tmp".toList] || path = ["var".toList, "tmp".toList])
  | 'b' | 'u' | 'g' | 'S' => some false
  | _ => none

abbrev Decision := Except ConditionFault (Bool × List Octets)

def missing {α : Type} (all : List Octets) : Except ConditionFault α :=
  .error (.missing (all.getLast?.getD []))

def looksUnary : Octets → Bool
  | ['-', _] => true
  | _ => false

def unary (view : View) (all words : List Octets) : Decision :=
  match words with
  | ('-' :: letter :: []) :: rest =>
    let decided : Decision := match rest with
      | [] => missing all
      | word :: rest =>
        if letter = 't' then do
          let _ ← readNumber word
          return (false, rest)
        else if letter = 'N' then return (false, rest)
        else return ((unary? view letter word).getD false, rest)
    if letter = 't' || letter = 'N' || (unary? view letter []).isSome then decided
    else .error (.unary ['-', letter])
  | _ => missing all

def comparison (view : View) (leftIsLength : Bool) (words : List Octets) : Decision :=
  match words with
  | left :: operator :: ['-', 'l'] :: right :: rest => do
    return (← binary view operator ⟨left, leftIsLength⟩ ⟨right, true⟩, rest)
  | left :: operator :: right :: rest => do
    return (← binary view operator ⟨left, leftIsLength⟩ ⟨right, false⟩, rest)
  | _ => .ok (false, [])

def one (words : List Octets) : Bool × List Octets := (!(words.headD []).isEmpty, words.drop 1)

def two (view : View) (all words : List Octets) : Decision :=
  match words with
  | ['!'] :: rest =>
    let (value, rest) := one rest
    .ok (!value, rest)
  | word :: _ => if looksUnary word then unary view all words else missing all
  | [] => missing all

def isBinaryAt (words : List Octets) (place : Nat) : Bool := (words[place]?).any isBinary

def countInside (words : List Octets) : Nat :=
  ([1, 2, 3, 4].find? fun n => words.length ≤ n || (words[n]?) = some [')']).getD words.length

mutual

def disjunction (view : View) (all : List Octets) : Nat → Bool → List Octets → Decision
  | 0, _, _ => .error (.closing none)
  | fuel + 1, found, words => do
    let (value, rest) ← conjunction view all fuel true words
    match rest with
    | ['-', 'o'] :: rest => disjunction view all fuel (found || value) rest
    | rest => return (found || value, rest)

def conjunction (view : View) (all : List Octets) : Nat → Bool → List Octets → Decision
  | 0, _, _ => .error (.closing none)
  | fuel + 1, found, words => do
    let (value, rest) ← term view all fuel words
    match rest with
    | ['-', 'a'] :: rest => conjunction view all fuel (found && value) rest
    | rest => return (found && value, rest)

def term (view : View) (all : List Octets) : Nat → List Octets → Decision
  | 0, _ => .error (.closing none)
  | fuel + 1, words =>
    match words with
    | [] => missing all
    | ['!'] :: rest => do
      if rest.isEmpty then missing all
      else
        let (value, rest) ← term view all fuel rest
        return (!value, rest)
    | ['('] :: rest => do
      if rest.isEmpty then missing all
      else
        let (value, rest) ← byCount view all fuel (countInside rest) rest
        match rest with
        | [')'] :: rest => return (value, rest)
        | rest => .error (.closing rest.head?)
    | word :: rest =>
      if word = ['-', 'l'] && 4 ≤ words.length && isBinaryAt words 2 then
        comparison view true rest
      else if 3 ≤ words.length && isBinaryAt words 1 then comparison view false words
      else if looksUnary word then unary view all words
      else .ok (one words)

/-- Up to four words are read by their number; more words form an expression in which `-a` binds
stronger than `-o`. -/
def byCount (view : View) (all : List Octets) : Nat → Nat → List Octets → Decision
  | 0, _, _ => .error (.closing none)
  | fuel + 1, count, words =>
    match count, words with
    | 1, words => .ok (one words)
    | 2, words => two view all words
    | 3, words => three view all fuel words
    | 4, words =>
      if words.head? = some ['!'] then do
        let (value, rest) ← three view all fuel (words.drop 1)
        return (!value, rest)
      else if words.head? = some ['('] && (words[3]?) = some [')'] then do
        let (value, rest) ← two view all (words.drop 1)
        return (value, rest.drop 1)
      else disjunction view all fuel false words
    | _, words => disjunction view all fuel false words

def three (view : View) (all : List Octets) : Nat → List Octets → Decision
  | 0, _ => .error (.closing none)
  | fuel + 1, words =>
    if isBinaryAt words 1 then comparison view false words
    else if words.head? = some ['!'] then do
      let (value, rest) ← two view all (words.drop 1)
      return (!value, rest)
    else if words.head? = some ['('] && (words[2]?) = some [')'] then
      let (value, rest) := one (words.drop 1)
      .ok (value, rest.drop 1)
    else if (words[1]?) = some ['-', 'a'] || (words[1]?) = some ['-', 'o'] then
      disjunction view all fuel false words
    else .error (.operator ((words[1]?).getD []))

end

def decide (view : View) (words : List Octets) : Except ConditionFault Bool :=
  match words with
  | [] => .ok false
  | words => do
    match ← byCount view words (10 * words.length + 10) words.length words with
    | (value, []) => return value
    | (_, word :: _) => .error (.extra word)

end Condition

open Quoting (phrase) in
def ConditionFault.text : ConditionFault → Octets
  | .number word => "invalid integer ".toList ++ phrase word
  | .operator word => phrase word ++ ": binary operator expected".toList
  | .unary word => phrase word ++ ": unary operator expected".toList
  | .missing word => "missing argument after ".toList ++ phrase word
  | .extra word => "extra argument ".toList ++ phrase word
  | .lengths name => name ++ " does not accept -l".toList
  | .closing none => "')' expected".toList
  | .closing (some found) => "')' expected, found ".toList ++ phrase found

end LoginSession.Utility

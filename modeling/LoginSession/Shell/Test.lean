import LoginSession.Utility.Condition
import LoginSession.Shell.State

namespace LoginSession.Shell.Test

open Host (Octets)
open Host.Files (View)
open Utility.Condition (compare compareFiles numberOperators unary?)

inductive Role where
  | operand
  | unary
  | binary
  | negation
  | conjunction
  | disjunction
  | opening
  | closing
  | finish
  deriving DecidableEq

def binaryOperators : List String :=
  ["=", "!=", "<", ">"] ++ numberOperators ++ Utility.Condition.fileOperators

def isUnary (word : Octets) : Bool :=
  match word with
  | ['-', letter] => "nzerwxfdcbpugkstSOGhL".toList.contains letter
  | _ => false

def roleOf (word : Octets) : Role :=
  if isUnary word then .unary
  else if binaryOperators.contains (String.ofList word) then .binary
  else if word = ['!'] then .negation
  else if word = ['-', 'a'] then .conjunction
  else if word = ['-', 'o'] then .disjunction
  else if word = ['('] then .opening
  else if word = [')'] then .closing
  else .operand

/-- A unary operator is an operand if nothing follows it, or a binary operator and a word. -/
def isOperandBefore : List Octets → Bool
  | [] => true
  | [_] => false
  | word :: _ => roleOf word = .binary

def role : List Octets → Role
  | [] => .finish
  | word :: rest =>
    match roleOf word with
    | .unary => if isOperandBefore rest then .operand else .unary
    | .opening => if rest.isEmpty then .operand else .opening
    | role => role

abbrev Decision := Except Octets (Bool × List Octets)

def readNumber (word : Octets) : Except Octets Int :=
  let text := word.dropWhile Arithmetic.isSpace
  let (negative, digits) := match text with
    | '-' :: rest => (true, rest)
    | '+' :: rest => (false, rest)
    | rest => (false, rest)
  let m : Nat := (digits.takeWhile Char.isDigit).foldl (fun m c => m * 10 + (c.toNat - 0x30)) 0
  let n : Int := if negative then -(m : Int) else m
  if digits.head?.any Char.isDigit && (digits.dropWhile Char.isDigit).all Arithmetic.isSpace &&
      -9223372036854775808 ≤ n && n ≤ 9223372036854775807 then .ok n
  else .error (State.illegalNumber word)

def operation (view : View) (words : List Octets) : Decision :=
  match words with
  | left :: operator :: right :: rest =>
    let name := String.ofList operator
    let value : Except Octets Bool :=
      if numberOperators.contains name then do
        return compare name (← readNumber left) (← readNumber right)
      else if name = "=" then .ok (left = right)
      else if name = "!=" then .ok (left ≠ right)
      else if name = "<" then .ok (left < right)
      else if name = ">" then .ok (right < left)
      else .ok (compareFiles view name left right)
    value.map fun value => (value, right :: rest)
  | _ => .error ((words.drop 1).headD [] ++ ": argument expected".toList)

def unary (view : View) (letter : Char) (word : Octets) : Except Octets Bool :=
  if letter = 't' then (readNumber word).map fun _ => false
  else .ok ((unary? view letter word).getD false)

mutual

def decideEither (view : View) : Nat → Role → List Octets → Decision
  | 0, _, _ => .error []
  | fuel + 1, first, words => do
    let (value, words) ← decideBoth view fuel first words
    if role (words.drop 1) = .disjunction then
      let words := words.drop 2
      let (other, words) ← decideEither view fuel (role words) words
      return (value || other, words)
    else return (value, words)

def decideBoth (view : View) : Nat → Role → List Octets → Decision
  | 0, _, _ => .error []
  | fuel + 1, first, words => do
    let (value, words) ← decideNegated view fuel first words
    if role (words.drop 1) = .conjunction then
      let words := words.drop 2
      let (other, words) ← decideBoth view fuel (role words) words
      return (value && other, words)
    else return (value, words)

def decideNegated (view : View) : Nat → Role → List Octets → Decision
  | 0, _, _ => .error []
  | fuel + 1, first, words => do
    if first = .negation then
      let next := role (words.drop 1)
      let (value, words) ←
        decideNegated view fuel next (if next = .finish then words else words.drop 1)
      return (!value, words)
    else decideOne view fuel first words

def decideOne (view : View) : Nat → Role → List Octets → Decision
  | 0, _, _ => .error []
  | fuel + 1, first, words =>
    match first, words with
    | .finish, words => .ok (false, words)
    | _, [] => .ok (false, [])
    | .opening, _ :: rest =>
      if role rest = .closing then .ok (false, rest)
      else do
        let (value, words) ← decideEither view fuel (role rest) rest
        let words := words.drop 1
        if role words = .closing then return (value, words)
        else .error "closing paren expected".toList
    | .unary, [_, letter] :: word :: rest => do
      return (← unary view letter word, word :: rest)
    | _, word :: rest =>
      if role rest = .binary then operation view (word :: rest)
      else .ok (!word.isEmpty, word :: rest)

end

def decideFrom (view : View) (first : Role) (words : List Octets) : Except Octets Bool := do
  match ← decideEither view (10 * words.length + 10) first words with
  | (_, word :: _ :: _) =>
    .error ((if word.isEmpty then [] else word ++ ": ".toList) ++ "unexpected operator".toList)
  | (value, _) => return value

/-- Three or four words have readings of their own, which come before the general one. -/
def decide (view : View) (words : List Octets) : Except Octets Bool :=
  match words with
  | [] => .ok false
  | [a, b, c] =>
    if roleOf b = .binary then decideFrom view .operand words
    else if a = ['('] ∧ c = [')'] then decideFrom view (role [b]) [b]
    else if a = ['!'] then (decideFrom view (role [b, c]) [b, c]).map (!·)
    else decideFrom view (role words) words
  | [a, b, c, d] =>
    if a = ['('] ∧ d = [')'] then decideFrom view (role [b, c]) [b, c]
    else if a = ['!'] then (decide view [b, c, d]).map (!·)
    else decideFrom view (role words) words
  | words => decideFrom view (role words) words

end LoginSession.Shell.Test

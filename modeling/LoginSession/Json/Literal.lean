import LoginSession.Json.Value
import LoginSession.Parameter.Value

namespace LoginSession.Json

inductive Escape where
  | char (c : Char)
  | unit (n : Nat)
  deriving DecidableEq, Repr

def hexDigit? (c : Char) : Option Nat :=
  if '0' ≤ c ∧ c ≤ '9' then some (c.toNat - '0'.toNat)
  else if 'a' ≤ c ∧ c ≤ 'f' then some (c.toNat - 'a'.toNat + 10)
  else if 'A' ≤ c ∧ c ≤ 'F' then some (c.toNat - 'A'.toNat + 10)
  else none

def hex4? (a b c d : Char) : Option Nat := do
  let a ← hexDigit? a
  let b ← hexDigit? b
  let c ← hexDigit? c
  let d ← hexDigit? d
  return ((a * 16 + b) * 16 + c) * 16 + d

def shortEscape? : Char → Option Char
  | '"' => some '"'
  | '\\' => some '\\'
  | '/' => some '/'
  | 'b' => some '\x08'
  | 'f' => some '\x0c'
  | 'n' => some '\n'
  | 'r' => some '\r'
  | 't' => some '\t'
  | _ => none

def readUnits (units : List Escape) : List Char → Option (List Escape × List Char)
  | [] => none
  | '"' :: rest => some (units.reverse, rest)
  | '\\' :: 'u' :: a :: b :: c :: d :: rest =>
    match hex4? a b c d with
    | some n => readUnits (.unit n :: units) rest
    | none => none
  | '\\' :: c :: rest =>
    match shortEscape? c with
    | some c => readUnits (.char c :: units) rest
    | none => none
  | c :: rest => if c = '\\' ∨ c.toNat < 0x20 then none else readUnits (.char c :: units) rest

def isHigh (n : Nat) : Bool := 0xd800 ≤ n && n ≤ 0xdbff

def isLow (n : Nat) : Bool := 0xdc00 ≤ n && n ≤ 0xdfff

def joinSurrogates (high low : Nat) : Char :=
  Char.ofNat (0x10000 + (high - 0xd800) * 0x400 + (low - 0xdc00))

/-- Gathered backwards. The units denote a text when every high surrogate is followed at once by a
low one and no low one stands alone. -/
def joinUnits (text : List Char) : List Escape → Option (List Char)
  | [] => some text.reverse
  | .char c :: rest => joinUnits (c :: text) rest
  | .unit high :: .unit low :: rest =>
    if isHigh high then if isLow low then joinUnits (joinSurrogates high low :: text) rest else none
    else if isLow high then none
    else joinUnits (Char.ofNat high :: text) (.unit low :: rest)
  | .unit n :: rest =>
    if isHigh n || isLow n then none else joinUnits (Char.ofNat n :: text) rest
termination_by units => units.length

def readString (cs : List Char) : Option (Option String × List Char) :=
  match readUnits [] cs with
  | some (units, rest) => some ((joinUnits [] units).map String.ofList, rest)
  | none => none

def natOfDigits (digits : List Char) : Nat :=
  digits.foldl (fun n c => n * 10 + (c.toNat - '0'.toNat)) 0

def isWholePart : List Char → Bool
  | [] => false
  | ['0'] => true
  | c :: _ => c ≠ '0'

def readFraction (cs : List Char) : Option (List Char × List Char) :=
  match cs with
  | '.' :: rest =>
    match rest.takeWhile Text.isDigit with
    | [] => none
    | digits => some ('.' :: digits, rest.dropWhile Text.isDigit)
  | _ => some ([], cs)

def readSign : List Char → List Char × List Char
  | '+' :: rest => (['+'], rest)
  | '-' :: rest => (['-'], rest)
  | rest => ([], rest)

def readExponent (cs : List Char) : Option (List Char × List Char) :=
  match cs with
  | [] => some ([], cs)
  | e :: rest =>
    if e = 'e' ∨ e = 'E' then
      let (sign, rest) := readSign rest
      match rest.takeWhile Text.isDigit with
      | [] => none
      | digits => some (e :: sign ++ digits, rest.dropWhile Text.isDigit)
    else some ([], cs)

/-- A number after its sign. Minus zero is no integer: no integer is written so. -/
def readUnsigned (negative : Bool) (cs : List Char) : Option (Json × List Char) := do
  let whole := cs.takeWhile Text.isDigit
  guard (isWholePart whole)
  let (fraction, rest) ← readFraction (cs.dropWhile Text.isDigit)
  let (exponent, rest) ← readExponent rest
  let n := natOfDigits whole
  if fraction.isEmpty && exponent.isEmpty && !(negative && n == 0) then
    return (.integer (if negative then -(n : Int) else n), rest)
  else
    let sign := if negative then ['-'] else []
    return (.real (String.ofList (sign ++ whole ++ fraction ++ exponent)), rest)

def readNumber : List Char → Option (Json × List Char)
  | '-' :: rest => readUnsigned true rest
  | rest => readUnsigned false rest

end LoginSession.Json

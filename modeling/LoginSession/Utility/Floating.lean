import LoginSession.Utility.Escape

namespace LoginSession.Utility

open Host (Octets)

/-- So many bits of precision; the last bit counts at least 2 to the power of `least`, and the first
one at most that of `greatest`. -/
structure Precision where
  bits : Nat
  least : Int
  greatest : Int

namespace Precision

def double : Precision := ⟨53, -1074, 1023⟩

def extended : Precision := ⟨64, -16445, 16383⟩

end Precision

/-- A finite number is a whole number times a power of two. -/
inductive Floating where
  | finite (negative : Bool) (mantissa : Nat) (exponent : Int)
  | infinite (negative : Bool)
  | undefined (negative : Bool)
  deriving DecidableEq

namespace Floating

def zero : Floating := .finite false 0 0

/-- A quotient, rounded to the nearest whole number and to the even one of two. All rounding starts
from the exact value. -/
def divideRounded (numerator denominator : Nat) : Nat :=
  let q := numerator / denominator
  let twice := 2 * (numerator % denominator)
  if denominator < twice ∨ (twice = denominator ∧ q % 2 = 1) then q + 1 else q

def scale (numerator denominator : Nat) (exponent : Int) : Nat × Nat :=
  match exponent with
  | .ofNat n => (numerator * Nat.pow 2 n, denominator)
  | .negSucc n => (numerator, denominator * Nat.pow 2 (n + 1))

def round (p : Precision) (negative : Bool) (numerator denominator : Nat) : Floating :=
  if numerator = 0 then .finite negative 0 0
  else
    let guess : Int := (Nat.log2 numerator : Int) - Nat.log2 denominator - p.bits
    let fits (e : Int) : Bool :=
      let (n, d) := scale numerator denominator (-e)
      n / d < Nat.pow 2 p.bits
    let e := if fits guess then guess else if fits (guess + 1) then guess + 1 else guess + 2
    let e := max e p.least
    let (n, d) := scale numerator denominator (-e)
    let m := divideRounded n d
    if p.greatest < e + Nat.log2 m then .infinite negative else .finite negative m e

def ofNat (p : Precision) (n : Nat) : Floating := round p false n 1

def isNegative : Floating → Bool
  | .finite negative _ _ | .infinite negative | .undefined negative => negative

def isZero : Floating → Bool
  | .finite _ 0 _ => true
  | _ => false

def units (negative : Bool) (mantissa : Nat) (exponent lower : Int) : Int :=
  let n : Int := (mantissa * Nat.pow 2 (exponent - lower).toNat : Nat)
  if negative then -n else n

def ofUnits (p : Precision) (n : Int) (exponent : Int) : Floating :=
  let (numerator, denominator) := scale n.natAbs 1 exponent
  round p (n < 0) numerator denominator

def add (p : Precision) (a b : Floating) : Floating :=
  match a, b with
  | .undefined s, _ | _, .undefined s => .undefined s
  | .infinite s, .infinite t => if s = t then .infinite s else .undefined true
  | .infinite s, _ | _, .infinite s => .infinite s
  | .finite s m e, .finite t n f =>
    if m = 0 ∧ n = 0 then .finite (s && t) 0 0
    else
      let lower := min e f
      ofUnits p (units s m e lower + units t n f lower) lower

def multiply (p : Precision) (a b : Floating) : Floating :=
  let negative := a.isNegative != b.isNegative
  match a, b with
  | .finite _ m e, .finite _ n f =>
    let (numerator, denominator) := scale (m * n) 1 (e + f)
    round p negative numerator denominator
  | .undefined s, _ | _, .undefined s => .undefined s
  | a, b => if a.isZero || b.isZero then .undefined true else .infinite negative

def below (a b : Floating) : Bool :=
  match a, b with
  | .undefined _, _ | _, .undefined _ => false
  | .infinite s, .infinite t => s && !t
  | .infinite s, _ => s
  | _, .infinite t => !t
  | .finite s m e, .finite t n f =>
    let lower := min e f
    units s m e lower < units t n f lower

def isSame (a b : Floating) : Bool :=
  match a, b with
  | .undefined _, _ | _, .undefined _ => false
  | a, b => !below a b && !below b a

structure Read where
  value : Floating
  rest : Octets
  isOutOfRange : Bool := false

def isSpace (c : Char) : Bool := c = ' ' || ('\t' ≤ c && c ≤ '\r')

def readExponent (letters : List Char) (text : Octets) : Int × Octets :=
  match text with
  | c :: rest =>
    if !letters.contains c then (0, text)
    else
      let (negative, digits) := match rest with
        | '-' :: digits => (true, digits)
        | '+' :: digits => (false, digits)
        | digits => (false, digits)
      match digits.takeWhile Char.isDigit with
      | [] => (0, text)
      | taken =>
        let n : Nat := taken.foldl (fun n c => min 1000000 (n * 10 + (c.toNat - 0x30))) 0
        (if negative then -(n : Int) else n, digits.drop taken.length)
  | [] => (0, [])

def readDigits (digit? : Char → Option Nat) (base : Nat) (text : Octets) :
    Option (Nat × Nat × Octets) :=
  let isDigit (c : Char) : Bool := (digit? c).isSome
  let whole := text.takeWhile isDigit
  let after := text.drop whole.length
  let (fraction, rest) := match after with
    | '.' :: tail =>
      let fraction := tail.takeWhile isDigit
      (fraction, tail.drop fraction.length)
    | tail => ([], tail)
  let value (n : Nat) (digits : Octets) : Nat :=
    digits.foldl (fun n c => n * base + (digit? c).getD 0) n
  if whole.isEmpty && fraction.isEmpty then none
  else some (value (value 0 whole) fraction, fraction.length, rest)

def decimalDigit? (c : Char) : Option Nat := if c.isDigit then some (c.toNat - 0x30) else none

def startsWith (name : String) (text : Octets) : Bool :=
  name.toList.isPrefixOf (text.map Char.toLower)

/-- Numbers beyond these powers of ten are out of range in any precision. -/
def maxPower : Int := 6000

def readFinite (p : Precision) (negative : Bool) (text : Octets) : Option Read :=
  let hexadecimal := match text with
    | '0' :: x :: rest =>
      if x = 'x' || x = 'X' then readDigits Escape.hexDigit? 16 rest else none
    | _ => none
  let check (read : Read) (n : Nat) : Read :=
    let isTiny := match read.value with
      | .finite _ m e => decide (m < Nat.pow 2 (p.bits - 1)) && e = p.least
      | .infinite _ => true
      | .undefined _ => false
    { read with isOutOfRange := n ≠ 0 && (isTiny || read.value.isZero) }
  match hexadecimal with
  | some (n, places, rest) =>
    let (exponent, rest) := readExponent ['p', 'P'] rest
    let exponent := max (-20000) (min 20000 exponent)
    let (numerator, denominator) := scale n 1 (exponent - 4 * places)
    some (check ⟨round p negative numerator denominator, rest, false⟩ n)
  | none =>
    (readDigits decimalDigit? 10 text).map fun (n, places, rest) =>
      let (exponent, rest) := readExponent ['e', 'E'] rest
      let power := exponent - places
      let value :=
        if n = 0 then .finite negative 0 0
        else if maxPower < power then .infinite negative
        else if power < -maxPower - (Nat.toDigits 10 n).length then .finite negative 0 0
        else
          match power with
          | .ofNat k => round p negative (n * Nat.pow 10 k) 1
          | .negSucc k => round p negative n (Nat.pow 10 (k + 1))
      check ⟨value, rest, false⟩ n

def read? (p : Precision) (text : Octets) : Option Read :=
  let text := text.dropWhile isSpace
  let (negative, text) := match text with
    | '-' :: rest => (true, rest)
    | '+' :: rest => (false, rest)
    | rest => (false, rest)
  if startsWith "infinity" text then some ⟨.infinite negative, text.drop 8, false⟩
  else if startsWith "inf" text then some ⟨.infinite negative, text.drop 3, false⟩
  else if startsWith "nan" text then
    let rest := text.drop 3
    let label := (rest.drop 1).takeWhile fun c => c.isAlphanum || c = '_'
    match rest, rest.drop (1 + label.length) with
    | '(' :: _, ')' :: after => some ⟨.undefined negative, after, false⟩
    | rest, _ => some ⟨.undefined negative, rest, false⟩
  else readFinite p negative text

inductive Notation where
  | fixed
  | scientific
  | general
  | hexadecimal
  deriving DecidableEq

def digits (n : Nat) : Octets := Nat.toDigits 10 n

def pointed (places : Nat) (alternate : Bool) (n : Nat) : Octets :=
  let text := digits n
  let text := List.replicate (places + 1 - text.length) '0' ++ text
  let whole := text.take (text.length - places)
  if places = 0 then if alternate then whole ++ ['.'] else whole
  else whole ++ '.' :: text.drop (text.length - places)

def timesPower (numerator denominator : Nat) (power : Int) : Nat :=
  match power with
  | .ofNat n => divideRounded (numerator * Nat.pow 10 n) denominator
  | .negSucc n => divideRounded numerator (denominator * Nat.pow 10 (n + 1))

def firstPower (numerator denominator : Nat) : Int :=
  let guess : Int := (digits numerator).length - (digits denominator).length
  let reaches (k : Int) : Bool :=
    match k with
    | .ofNat n => denominator * Nat.pow 10 n ≤ numerator
    | .negSucc n => denominator ≤ numerator * Nat.pow 10 (n + 1)
  if reaches guess then guess else guess - 1

def significant (count : Nat) (numerator denominator : Nat) : Nat × Int :=
  if numerator = 0 then (0, 0)
  else
    let power := firstPower numerator denominator
    let n := timesPower numerator denominator ((count : Int) - 1 - power)
    if n = Nat.pow 10 count then (Nat.pow 10 (count - 1), power + 1) else (n, power)

def exponentText (letter : Char) (least : Nat) (power : Int) : Octets :=
  let text := digits power.natAbs
  letter :: (if power < 0 then '-' else '+') :: List.replicate (least - text.length) '0' ++ text

def withoutZeros (text : Octets) : Octets :=
  if !text.contains '.' then text
  else
    let text := (text.reverse.dropWhile (· = '0'))
    (match text with
      | '.' :: rest => rest
      | rest => rest).reverse

def scientificText (places : Nat) (alternate strip : Bool) (numerator denominator : Nat) : Octets :=
  let (n, power) := significant (places + 1) numerator denominator
  let mantissa := pointed places alternate n
  (if strip then withoutZeros mantissa else mantissa) ++ exponentText 'e' 2 power

def fixedText (places : Nat) (alternate strip : Bool) (numerator denominator : Nat) : Octets :=
  let text := pointed places alternate (timesPower numerator denominator places)
  if strip then withoutZeros text else text

def generalText (precision : Nat) (alternate : Bool) (numerator denominator : Nat) : Octets :=
  let count := max 1 precision
  let (_, power) := significant count numerator denominator
  if -4 ≤ power ∧ power < count then
    fixedText (count - 1 - power).toNat alternate (!alternate) numerator denominator
  else scientificText (count - 1) alternate (!alternate) numerator denominator

/-- Hexadecimal digits; the first one stands for as many bits as are left over by the others. -/
def hexadecimalText (p : Precision) (precision : Option Nat) (alternate : Bool) (mantissa : Nat)
    (exponent : Int) : Octets :=
  let places := (p.bits - 1) / 4
  -- All bits of the mantissa are used, whether or not the number needs them.
  let missing := if mantissa = 0 then 0 else p.bits - 1 - Nat.log2 mantissa
  let isSmall := decide (exponent - missing < p.least)
  let missing := if isSmall then (exponent - p.least).toNat else missing
  let m := mantissa * Nat.pow 2 missing
  let power : Int := if mantissa = 0 then 0 else exponent - missing + 4 * places
  let (m, places) := match precision with
    | some n => if n < places then (divideRounded m (Nat.pow 16 (places - n)), n) else (m, places)
    | none => (m, places)
  let text := Nat.toDigits 16 m
  let text := List.replicate (places + 1 - text.length) '0' ++ text
  let fraction := text.drop (text.length - places)
  let fraction := match precision with
    | some n => fraction ++ List.replicate (n - places) '0'
    | none => (fraction.reverse.dropWhile (· = '0')).reverse
  let point := if fraction.isEmpty && !alternate then [] else ['.']
  "0x".toList ++ text.take (text.length - places) ++ point ++ fraction ++ exponentText 'p' 1 power

def text (p : Precision) (form : Notation) (precision : Option Nat) (alternate : Bool) :
    Floating → Octets
  | .infinite _ => "inf".toList
  | .undefined _ => "nan".toList
  | .finite _ m e =>
    let (numerator, denominator) := scale m 1 e
    match form with
    | .fixed => fixedText (precision.getD 6) alternate false numerator denominator
    | .scientific => scientificText (precision.getD 6) alternate false numerator denominator
    | .general => generalText (precision.getD 6) alternate numerator denominator
    | .hexadecimal => hexadecimalText p precision alternate m e

end Floating

end LoginSession.Utility

import LoginSession.Utility.Floating

namespace LoginSession.Utility

open Host (Octets)

namespace Directive

structure Flags where
  left : Bool := false
  plus : Bool := false
  space : Bool := false
  alternate : Bool := false
  zero : Bool := false
  grouped : Bool := false
  deriving DecidableEq

def readFlags (flags : Flags) : Octets → Flags × Octets
  | '-' :: rest => readFlags { flags with left := true } rest
  | '+' :: rest => readFlags { flags with plus := true } rest
  | ' ' :: rest => readFlags { flags with space := true } rest
  | '#' :: rest => readFlags { flags with alternate := true } rest
  | '0' :: rest => readFlags { flags with zero := true } rest
  | rest => (flags, rest)

def natOf (digits : Octets) : Nat := digits.foldl (fun n c => n * 10 + (c.toNat - 0x30)) 0

def pad (left : Bool) (fill : Char) (width : Nat) (text : Octets) : Octets :=
  let missing := List.replicate (width - text.length) fill
  if left then text ++ missing else missing ++ text

def sign (flags : Flags) (negative : Bool) : Octets :=
  if negative then ['-'] else if flags.plus then ['+'] else if flags.space then [' '] else []

/-- A number with its sign or base mark in front; zeros go between the mark and the digits. -/
def number (flags : Flags) (width : Nat) (precision : Option Nat) (mark digits : Octets) : Octets :=
  let digits := match precision with
    | some p => pad false '0' p (if p = 0 ∧ digits = ['0'] then [] else digits)
    | none =>
      if flags.zero && !flags.left then pad false '0' (width - mark.length) digits else digits
  pad flags.left ' ' width (mark ++ digits)

def signed (flags : Flags) (width : Nat) (precision : Option Nat) (n : Int) : Octets :=
  number flags width precision (sign flags (n < 0)) (Nat.toDigits 10 n.natAbs)

def unsigned (flags : Flags) (width : Nat) (precision : Option Nat) (letter : Char) (n : Nat) :
    Octets :=
  match letter with
  | 'o' =>
    let digits := Nat.toDigits 8 n
    -- The first digit is made a zero if there is none.
    let least := if flags.alternate && n ≠ 0 then digits.length + 1 else 1
    match precision, flags.alternate with
    | some p, true => number flags width (some (max p least)) [] digits
    | some p, false => number flags width (some p) [] digits
    | none, true =>
      number flags width none (if n = 0 then [] else ['0']) digits
    | none, false => number flags width none [] digits
  | 'x' | 'X' =>
    let digits := Nat.toDigits 16 n
    let digits := if letter = 'X' then digits.map Char.toUpper else digits
    let mark := if flags.alternate && n ≠ 0 then ['0', letter] else []
    number flags width precision mark digits
  | _ => number flags width precision [] (Nat.toDigits 10 n)

def notation? (letter : Char) : Option Floating.Notation :=
  match letter.toLower with
  | 'f' => some .fixed
  | 'e' => some .scientific
  | 'g' => some .general
  | 'a' => some .hexadecimal
  | _ => none

/-- A floating-point number; a capital letter asks for capitals. Zeros go between its sign or base
mark and its digits. -/
def floating (p : Precision) (flags : Flags) (width : Nat) (precision : Option Nat) (letter : Char)
    (x : Floating) : Octets :=
  let form := (notation? letter).getD .general
  let text := Floating.text p form precision flags.alternate x
  let text := if letter.isUpper then text.map Char.toUpper else text
  let mark := sign flags x.isNegative
  let isFinite := match x with
    | .finite _ _ _ => true
    | _ => false
  let (mark, text) :=
    if isFinite && form = .hexadecimal then (mark ++ text.take 2, text.drop 2) else (mark, text)
  let text :=
    if isFinite && flags.zero && !flags.left then pad false '0' (width - mark.length) text else text
  pad flags.left ' ' width (mark ++ text)

end Directive

end LoginSession.Utility

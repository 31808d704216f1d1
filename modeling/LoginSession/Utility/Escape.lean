import LoginSession.Host.Octets

namespace LoginSession.Utility

open Host (Octets)

structure EscapeRules where
  extended : Bool
  longOctal : Bool
  stops : Bool
  strict : Bool := false

inductive Escape where
  | chars (chars rest : Octets)
  | stop
  | fault (text : Octets)
  | none

namespace Escape

def octalDigit? (c : Char) : Option Nat :=
  if '0' ≤ c ∧ c ≤ '7' then some (c.toNat - 0x30) else Option.none

def hexDigit? (c : Char) : Option Nat :=
  if c.isDigit then some (c.toNat - 0x30)
  else if 'a' ≤ c ∧ c ≤ 'f' then some (c.toNat - 0x57)
  else if 'A' ≤ c ∧ c ≤ 'F' then some (c.toNat - 0x37)
  else Option.none

def readDigits (digit? : Char → Option Nat) (base : Nat) : Nat → Nat → Octets → Nat × Octets
  | 0, n, text => (n, text)
  | _, n, [] => (n, [])
  | count + 1, n, c :: rest =>
    match digit? c with
    | some d => readDigits digit? base count (n * base + d) rest
    | Option.none => (n, c :: rest)

def octet (n : Nat) : Char := Char.ofNat (n % 256)

def simple? : Char → Option Char
  | '\\' => some '\\'
  | 'a' => some '\x07'
  | 'b' => some '\x08'
  | 'f' => some '\x0c'
  | 'n' => some '\n'
  | 'r' => some '\r'
  | 't' => some '\t'
  | 'v' => some '\x0b'
  | _ => Option.none

def missingDigits : Octets := "missing hexadecimal number in escape".toList

def hexadecimal (least n : Nat) : Octets :=
  let digits := Nat.toDigits 16 n
  List.replicate (least - digits.length) '0' ++ digits

/-- A character by its number, which has so many digits. One that is not in the common set is
printed as it would be written. -/
def readNumbered (letter : Char) (count : Nat) (text : Octets) : Escape :=
  let (n, after) := readDigits hexDigit? 16 count 0 text
  if after.length + count ≠ text.length then .fault missingDigits
  else if 0xd800 ≤ n ∧ n ≤ 0xdfff then
    .fault ("invalid universal character name \\".toList ++ letter :: hexadecimal count n)
  else if n < 0x80 then .chars [Char.ofNat n] after
  else
    let digits := (hexadecimal (if n < 0x10000 then 4 else 8) n).map Char.toUpper
    .chars ('\\' :: (if n < 0x10000 then 'u' else 'U') :: digits) after

def read (rules : EscapeRules) (text : Octets) : Escape :=
  match text with
  | [] => .none
  | c :: rest =>
    match simple? c with
    | some d => .chars [d] rest
    | Option.none =>
      if c = 'c' ∧ rules.stops then .stop
      else if c = '"' ∧ rules.strict then .chars ['"'] rest
      else if c = 'u' ∧ rules.strict then readNumbered c 4 rest
      else if c = 'U' ∧ rules.strict then readNumbered c 8 rest
      else if c = 'e' ∧ rules.extended then .chars ['\x1b'] rest
      else if c = 'x' ∧ rules.extended then
        let (n, after) := readDigits hexDigit? 16 2 0 rest
        if after.length < rest.length then .chars [octet n] after
        else if rules.strict then .fault missingDigits
        else .none
      else if c = '0' ∧ rules.longOctal then
        let (n, after) := readDigits octalDigit? 8 3 0 rest
        .chars [octet n] after
      else if (octalDigit? c).isSome then
        let (n, after) := readDigits octalDigit? 8 3 0 text
        .chars [octet n] after
      else .none

end Escape

inductive TextEnd where
  | complete
  | stopped
  | fault (text : Octets)
  deriving DecidableEq

def unescapeFrom (rules : EscapeRules) : Nat → Octets → Octets → Octets × TextEnd
  | 0, taken, text => (taken.reverse ++ text, .complete)
  | _, taken, [] => (taken.reverse, .complete)
  | fuel + 1, taken, '\\' :: rest =>
    match Escape.read rules rest with
    | .chars chars after => unescapeFrom rules fuel (chars.reverse ++ taken) after
    | .stop => (taken.reverse, .stopped)
    | .fault text => (taken.reverse, .fault text)
    | .none => unescapeFrom rules fuel ('\\' :: taken) rest
  | fuel + 1, taken, c :: rest => unescapeFrom rules fuel (c :: taken) rest

def unescape (rules : EscapeRules) (text : Octets) : Octets × TextEnd :=
  unescapeFrom rules text.length [] text

end LoginSession.Utility

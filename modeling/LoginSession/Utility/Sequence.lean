import LoginSession.Utility.Directive

namespace LoginSession.Utility

open Host (Octets)

namespace Sequence

/-- A number with its width and its places after the point as it would be written without an
exponent. Places are not known for some notations. Digits alone are an exact number too. -/
structure Operand where
  value : Floating
  width : Int := 1
  places : Option Nat := some 0
  exact : Option Nat := none

def one : Operand := { value := Floating.ofNat .extended 1, exact := some 1 }

def exponentOf? (text : Octets) : Option (Octets × Int) :=
  let letter := if text.contains 'e' then 'e' else 'E'
  let mantissa := text.takeWhile (· ≠ letter)
  if mantissa.length = text.length then none
  else some (mantissa, (Floating.readExponent [letter] (text.drop mantissa.length)).1)

def decimalShape (text : Octets) : Int × Nat :=
  let hasPoint := text.contains '.'
  let before := text.takeWhile (· ≠ '.')
  let fraction := ((text.drop (before.length + 1)).takeWhile fun c => c ≠ 'e' && c ≠ 'E').length
  let pointWidth : Int :=
    if !hasPoint then 0
    else if fraction = 0 then -1
    else if before.getLast?.any Char.isDigit then 0 else 1
  let width : Int := text.length + pointWidth
  match exponentOf? text with
  | none => (width, fraction)
  | some (mantissa, exponent) =>
    let width := width - (text.length - mantissa.length : Nat)
    if exponent < 0 then
      let unwritten : Int := if !hasPoint || mantissa.getLast? = some '.' then 1 else 0
      (width + unwritten - exponent, fraction + exponent.natAbs)
    else
      let places := fraction - exponent.natAbs
      let unwritten : Int := if hasPoint && places = 0 && fraction ≠ 0 then 1 else 0
      (width - unwritten + (exponent.natAbs - fraction : Nat), places)

def readNumber? (text : Octets) : Option Floating :=
  match Floating.read? .extended text with
  | some found =>
    if !found.rest.isEmpty || (found.isOutOfRange && !found.value.isZero) then none
    else some found.value
  | none => none

def isUndefined : Floating → Bool
  | .undefined _ => true
  | _ => false

def isFinite : Floating → Bool
  | .finite _ _ _ => true
  | _ => false

def isDigits (text : Octets) : Bool := !text.isEmpty && text.all Char.isDigit

def Operand.of (text : Octets) (value : Floating) : Operand :=
  let exact := if isDigits text then some (Directive.natOf text) else none
  let text := text.dropWhile fun c => Floating.isSpace c || c = '+'
  let isDecimal := !text.contains 'x' && !text.contains 'X'
  if isDecimal && isFinite value then
    let (width, places) := decimalShape text
    { value, width, places := some places, exact }
  else
    let isUnknown := text.contains '.' || text.contains 'p'
    { value, width := 0, places := if isUnknown then none else some 0 }

structure Format where
  before : Octets := []
  flags : Directive.Flags := {}
  width : Nat := 0
  precision : Option Nat := none
  letter : Char := 'g'
  after : Octets := []

def Format.number (f : Format) (x : Floating) : Octets :=
  Directive.floating .extended f.flags f.width f.precision f.letter x

def Format.text (f : Format) (x : Floating) : Octets := f.before ++ f.number x ++ f.after

def readPlain (taken : Octets) : Octets → Octets × Option Octets
  | [] => (taken.reverse, none)
  | '%' :: '%' :: rest => readPlain ('%' :: taken) rest
  | '%' :: rest => (taken.reverse, some rest)
  | c :: rest => readPlain (c :: taken) rest

def readFlags : Nat → Directive.Flags → Octets → Directive.Flags × Octets
  | 0, flags, text => (flags, text)
  | fuel + 1, flags, text =>
    match Directive.readFlags flags text with
    | (flags, '\'' :: rest) => readFlags fuel flags rest
    | found => found

def readFormat (text : Octets) : Except Octets Format :=
  match readPlain [] text with
  | (_, none) => .error " has no % directive".toList
  | (before, some rest) =>
    let (flags, rest) := readFlags text.length {} rest
    let width := rest.takeWhile Char.isDigit
    let rest := rest.drop width.length
    let (precision, rest) := match rest with
      | '.' :: rest =>
        let digits := rest.takeWhile Char.isDigit
        (some (Directive.natOf digits), rest.drop digits.length)
      | rest => (none, rest)
    let rest := if rest.head? = some 'L' then rest.drop 1 else rest
    match rest with
    | [] => .error " ends in %".toList
    | letter :: rest =>
      if (Directive.notation? letter).isNone then
        .error (" has unknown %".toList ++ letter :: " directive".toList)
      else
        match readPlain [] rest with
        | (_, some _) => .error " has too many % directives".toList
        | (after, none) =>
          .ok { before, flags, width := Directive.natOf width, precision, letter, after }

def defaultFormat (equalWidth : Bool) (first step last : Operand) : Format :=
  match first.places, step.places, last.places with
  | some p, some q, some r =>
    let places := max p q
    if !equalWidth then { precision := some places, letter := 'f' }
    else
      let pointed (isPointed : Bool) : Int := if isPointed then 1 else 0
      let firstWidth := first.width + (places - p : Nat) + pointed (p = 0 && places ≠ 0)
      let lastWidth := last.width + ((places : Int) - r) - pointed (r ≠ 0 && places = 0) +
        pointed (r = 0 && places ≠ 0)
      { flags := { zero := true }, width := (max firstWidth lastWidth).toNat,
        precision := some places, letter := 'f' }
  | _, _, _ => {}

/-- Whole numbers are counted exactly; other terms are computed from the first one and their index,
so that rounding errors do not add up. -/
inductive Course where
  | whole (next step : Nat) (last : Option Nat)
  | real (format : Format) (first step last : Floating) (index : Nat)

def termAt (first step : Floating) (index : Nat) : Floating :=
  if index = 0 then first
  else
    first.add .extended ((Floating.ofNat .extended index).multiply .extended step)

def isPast (step last x : Floating) : Bool :=
  if step.below .zero then x.below last else last.below x

/-- A number just past the last one that is written like it, and not like the one before it. -/
def isLastInWriting (format : Format) (last before x : Floating) : Bool :=
  match readNumber? (format.number x) with
  | some y => y.isSame last && format.number before ≠ format.number x
  | none => false

def next : Course → Octets × Option Course
  | .whole n step last =>
    let isMore := last.all (n + step ≤ ·)
    (Octets.ofNat n, if isMore then some (.whole (n + step) step last) else none)
  | .real format first step last index =>
    let x := termAt first step index
    let y := termAt first step (index + 1)
    let isMore := !isPast step last x &&
      (!isPast step last y || isLastInWriting format last x y)
    (format.text x, if isMore then some (.real format first step last (index + 1)) else none)

def run (separator : Octets) : Nat → List Octets → Option Course → Octets × Option Course
  | 0, taken, course => (taken.reverse.flatten, course)
  | _, taken, none => (taken.reverse.flatten, none)
  | count + 1, taken, some course =>
    let (text, rest) := next course
    run separator count ((text ++ (if rest.isSome then separator else ['\n'])) :: taken) rest

def maxStep : Nat := 200

def whole? : Floating → Option Nat
  | .finite negative m e =>
    if negative then none
    else
      match e with
      | .ofNat n => some (m * Nat.pow 2 n)
      | .negSucc n => if m % Nat.pow 2 (n + 1) = 0 then some (m / Nat.pow 2 (n + 1)) else none
  | _ => none

def Operand.whole? (o : Operand) : Option Nat := o.exact.or (Sequence.whole? o.value)

def course (format : Option Format) (equalWidth : Bool) (isPlain : Bool)
    (first step last : Operand) : Option Course :=
  let isWhole := [first, step, last].all fun operand => operand.places = some 0
  match isPlain && isWhole, first.whole?, step.whole? with
  | true, some n, some (k + 1) =>
    match last.whole?, last.value with
    | some m, _ =>
      if maxStep ≤ k then real else if n ≤ m then some (.whole n (k + 1) (some m)) else none
    | none, .infinite false => if maxStep ≤ k then real else some (.whole n (k + 1) none)
    | none, _ => real
  | _, _, _ => real
where
  real : Option Course :=
    if isPast step.value last.value first.value then none
    else
      some (.real (format.getD (defaultFormat equalWidth first step last)) first.value step.value
        last.value 0)

end Sequence

end LoginSession.Utility

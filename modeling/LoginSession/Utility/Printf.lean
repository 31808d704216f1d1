import LoginSession.Utility.Directive
import LoginSession.Utility.Quoting

namespace LoginSession.Utility

open Host (Octets)

namespace Printf

open Directive (Flags natOf)

inductive Size where
  | number (n : Nat)
  | argument

inductive Piece where
  | chars (text : Octets)
  | stop
  | fault (text : Octets)
  | directive (flags : Flags) (width precision : Option Size) (conversion : Char)
  | bad (text : Octets)

/-- The shell's own command and the program differ in escapes, in directives, in how exact their
numbers are and in the words of a complaint. -/
inductive Flavour where
  | shell
  | program
  deriving DecidableEq

def formatRules : Flavour → EscapeRules
  | .shell => { extended := false, longOctal := false, stops := false }
  | .program => { extended := true, longOctal := false, stops := true, strict := true }

def argumentRules : Flavour → EscapeRules
  | .shell => { extended := false, longOctal := true, stops := true }
  | .program => { extended := true, longOctal := true, stops := true, strict := true }

def precision : Flavour → Precision
  | .shell => .double
  | .program => .extended

def readSize (text : Octets) : Option Size × Octets :=
  match text with
  | '*' :: rest => (some .argument, rest)
  | _ =>
    match text.takeWhile Char.isDigit with
    | [] => (none, text)
    | digits => (some (.number (natOf digits)), text.dropWhile Char.isDigit)

def readSizes (text : Octets) : Option Size × Option Size × Octets :=
  let (width, rest) := readSize text
  match rest with
  | '.' :: rest =>
    let (size, rest) := readSize rest
    (width, some (size.getD (.number 0)), rest)
  | rest => (width, none, rest)

def conversions : List Char :=
  ['s', 'c', 'd', 'i', 'u', 'o', 'x', 'X', 'a', 'A', 'e', 'E', 'f', 'F', 'g', 'G']

def readShell (text : Octets) : Piece × Octets :=
  let (flags, rest) := Directive.readFlags {} text
  let (width, precision, rest) := readSizes rest
  match rest with
  | [] => (.bad "missing format character".toList, [])
  | c :: after =>
    if c = 'b' || conversions.contains c then (.directive flags width precision c, after)
    else
      let spelled := '%' :: text.take (text.length - after.length)
      (.bad (spelled ++ ": invalid directive".toList), after)

def readGroupedFlags : Nat → Flags → Octets → Flags × Octets
  | 0, flags, text => (flags, text)
  | fuel + 1, flags, text =>
    match Directive.readFlags flags text with
    | (flags, c :: rest) =>
      if c = '\'' || c = 'I' then readGroupedFlags fuel { flags with grouped := true } rest
      else (flags, c :: rest)
    | (flags, []) => (flags, [])

def isAllowed (flags : Flags) (hasPrecision : Bool) (c : Char) : Bool :=
  conversions.contains c &&
    !(flags.grouped && "aAceEosxX".toList.contains c) &&
    !(flags.alternate && "cdisu".toList.contains c) &&
    !(flags.zero && "cs".toList.contains c) && !(hasPrecision && c = 'c')

def readProgram (text : Octets) : Piece × Octets :=
  match text with
  | 'b' :: after => (.directive {} none none 'b', after)
  | 'q' :: after => (.directive {} none none 'q', after)
  | _ =>
    let (flags, rest) := readGroupedFlags text.length {} text
    let (width, precision, rest) := readSizes rest
    let rest := rest.dropWhile "lLhjtz".toList.contains
    let c := rest.headD '\x00'
    if isAllowed flags precision.isSome c then (.directive flags width precision c, rest.drop 1)
    else
      let spelled := '%' :: text.take (text.length - (rest.drop 1).length)
      (.bad (spelled ++ ": invalid conversion specification".toList), rest.drop 1)

def piecesFrom (flavour : Flavour) : Nat → List Piece → Octets → List Piece
  | 0, taken, _ => taken.reverse
  | _, taken, [] => taken.reverse
  | fuel + 1, taken, '%' :: '%' :: rest => piecesFrom flavour fuel (.chars ['%'] :: taken) rest
  | fuel + 1, taken, '%' :: rest =>
    let (piece, after) := match flavour with
      | .shell => readShell rest
      | .program => readProgram rest
    piecesFrom flavour fuel (piece :: taken) after
  | fuel + 1, taken, '\\' :: rest =>
    match Escape.read (formatRules flavour) rest with
    | .chars chars after => piecesFrom flavour fuel (.chars chars :: taken) after
    | .stop => (.stop :: taken).reverse
    | .fault text => (.fault text :: taken).reverse
    | .none => piecesFrom flavour fuel (.chars ['\\'] :: taken) rest
  | fuel + 1, taken, c :: rest => piecesFrom flavour fuel (.chars [c] :: taken) rest

def pieces (flavour : Flavour) (format : Octets) : List Piece :=
  piecesFrom flavour (format.length + 1) [] format

inductive Part where
  | output (text : Octets)
  | complaint (text : Octets)

/-- Printing in progress. `parts` are complete, the last one first; `current` is what has been
printed since, last character first. -/
structure Run where
  parts : List Part := []
  current : Octets := []
  arguments : List Octets
  consumed : Bool := false
  status : Nat := 0
  stopped : Bool := false

namespace Run

def next (r : Run) : Option Octets × Run :=
  match r.arguments with
  | [] => (none, { r with consumed := true })
  | a :: rest => (some a, { r with arguments := rest, consumed := true })

def emit (r : Run) (text : Octets) : Run := { r with current := text.reverse ++ r.current }

def close (r : Run) : List Part :=
  if r.current.isEmpty then r.parts else .output r.current.reverse :: r.parts

def say (r : Run) (text : Octets) : Run :=
  { r with parts := .complaint text :: r.close, current := [] }

def complain (r : Run) (text : Octets) : Run := { r.say text with status := 1 }

def stop (r : Run) : Run := { r with stopped := true }

def reject (r : Run) (status : Nat) (text : Octets) : Run :=
  { r.complain text with stopped := true, status }

end Run

def readInteger (text : Octets) : Int × Octets :=
  let start := text.dropWhile Floating.isSpace
  let (negative, digits) := match start with
    | '-' :: rest => (true, rest)
    | '+' :: rest => (false, rest)
    | rest => (false, rest)
  let decimal := digits.takeWhile Char.isDigit
  let (n, rest) := match digits with
    | '0' :: x :: h :: hex =>
      if (x = 'x' || x = 'X') && (Escape.hexDigit? h).isSome then
        Escape.readDigits Escape.hexDigit? 16 (hex.length + 1) 0 (h :: hex)
      else Escape.readDigits Escape.octalDigit? 8 digits.length 0 digits
    | '0' :: _ => Escape.readDigits Escape.octalDigit? 8 digits.length 0 digits
    | _ => (natOf decimal, if decimal.isEmpty then text else digits.drop decimal.length)
  (if negative then -(n : Int) else n, rest)

def quoted? (flavour : Flavour) (text : Octets) : Option (Nat × Octets) :=
  match flavour, text with
  | .shell, q :: rest =>
    if q = '\'' || q = '"' then some ((rest.headD '\x00').toNat, []) else none
  | .program, q :: c :: rest => if q = '\'' || q = '"' then some (c.toNat, rest) else none
  | _, _ => none

def checkNumber (flavour : Flavour) (r : Run) (text rest : Octets) (isOutOfRange : Bool) : Run :=
  let isEmpty := decide (rest.length = text.length)
  let range := ": Numerical result out of range".toList
  match flavour with
  | .shell =>
    if !rest.isEmpty then
      r.complain (text ++
        (if isEmpty then ": expected numeric value" else ": not completely converted").toList)
    else if isOutOfRange then r.complain (text ++ range)
    else r
  | .program =>
    let name := Quoting.phrase text
    if isOutOfRange then r.complain (name ++ range)
    else if !rest.isEmpty then
      r.complain (name ++
        (if isEmpty then ": expected a numeric value" else ": value not completely converted").toList)
    else r

def numeric {α : Type} (flavour : Flavour) (r : Run) (ofNat : Nat → α)
    (read : Octets → α × Octets × Bool) : α × Run :=
  match r.next with
  | (none, r) => (ofNat 0, r)
  | (some text, r) =>
    match quoted? flavour text with
    | some (n, ignored) =>
      let warning := "warning: ".toList ++ ignored ++
        ": character(s) following character constant have been ignored".toList
      (ofNat n, if ignored.isEmpty then r else r.say warning)
    | none =>
      let (value, rest, isOutOfRange) := read text
      (value, checkNumber flavour r text rest isOutOfRange)

def integer (flavour : Flavour) (least greatest : Int) (r : Run) : Int × Run :=
  numeric flavour r Int.ofNat fun text =>
    let (n, rest) := readInteger text
    let bounded := max least (min greatest n)
    (bounded, rest, n ≠ bounded)

def signed (flavour : Flavour) (r : Run) : Int × Run :=
  integer flavour (-9223372036854775808) 9223372036854775807 r

/-- A negative number stands for itself below the next power of two. -/
def unsigned (flavour : Flavour) (r : Run) : Nat × Run :=
  numeric flavour r id fun text =>
    let (n, rest) := readInteger text
    let range : Int := 18446744073709551616
    if n < range ∧ -range < n then ((n % range).toNat, rest, false)
    else ((range - 1).toNat, rest, true)

def floating (flavour : Flavour) (r : Run) : Floating × Run :=
  let p := precision flavour
  numeric flavour r (Floating.ofNat p) fun text =>
    match Floating.read? p text with
    | some found => (found.value, found.rest, found.isOutOfRange)
    | none => (.zero, text, false)

def maxSize : Int := 2147483647

def sizeOf (flavour : Flavour) (what : String) (size : Option Size) (r : Run) : Option Int × Run :=
  match size with
  | none => (none, r)
  | some (.number n) => (some n, r)
  | some .argument =>
    let text := r.arguments.headD []
    let (n, r) := signed flavour r
    if maxSize < n ∧ flavour = .program then
      (some 0, r.reject 1 (("invalid " ++ what ++ ": ").toList ++ Quoting.phrase text))
    else (some n, r)

def emitEscaped (flavour : Flavour) (shape : Octets → Octets) (r : Run) : Run :=
  let (word, r) := r.next
  let (text, ending) := unescape (argumentRules flavour) (word.getD [])
  let r := r.emit (shape text)
  match ending with
  | .complete => r
  | .stopped =>
    match flavour with
    | .shell => r.stop
    | .program => { r.stop with status := 0 }
  | .fault text => r.reject 1 text

def convert (flavour : Flavour) (flags : Flags) (width precision : Option Size) (c : Char)
    (r : Run) : Run :=
  let (width, r) := sizeOf flavour "field width" width r
  let (precision, r) := if r.stopped then (none, r) else sizeOf flavour "precision" precision r
  if r.stopped then r
  else
    let flags := match width with
      | some (.negSucc _) => { flags with left := true }
      | _ => flags
    let width := (width.getD 0).natAbs
    let precision := match precision with
      | some (.ofNat p) => some p
      | _ => none
    let text (word : Octets) : Octets :=
      let word := match precision with
        | some p => word.take p
        | none => word
      Directive.pad flags.left ' ' width word
    if c = 's' then
      let (word, r) := r.next
      r.emit (text (word.getD []))
    else if c = 'c' then
      let (word, r) := r.next
      r.emit (Directive.pad flags.left ' ' width [(word.getD []).headD '\x00'])
    else if c = 'q' then
      let (word, r) := r.next
      r.emit ((word.map Quoting.wordIfNeeded).getD [])
    else if c = 'b' then emitEscaped flavour text r
    else if c = 'd' || c = 'i' then
      let (n, r) := signed flavour r
      r.emit (Directive.signed flags width precision n)
    else if (Directive.notation? c).isSome then
      let (x, r) := floating flavour r
      r.emit (Directive.floating (Printf.precision flavour) flags width precision c x)
    else
      let (n, r) := unsigned flavour r
      r.emit (Directive.unsigned flags width precision c n)

def runPieces (flavour : Flavour) : List Piece → Run → Run
  | [], r => r
  | piece :: rest, r =>
    match piece with
    | .chars text => runPieces flavour rest (r.emit text)
    | .stop => { r.stop with status := 0 }
    | .fault text => r.reject 1 text
    | .bad text => r.reject (if flavour = .shell then 2 else 1) text
    | .directive flags width precision c =>
      let r := convert flavour flags width precision c r
      if r.stopped then r else runPieces flavour rest r

/-- Every round takes an argument or is the last. -/
def rounds (flavour : Flavour) (pieces : List Piece) : Nat → Run → Run
  | 0, r => r
  | fuel + 1, r =>
    let r := runPieces flavour pieces { r with consumed := false }
    if r.stopped || r.arguments.isEmpty || !r.consumed then r else rounds flavour pieces fuel r

end Printf

structure Printed where
  parts : List Printf.Part
  status : Nat
  unused : List Octets

namespace Printed

def output (p : Printed) : Octets :=
  p.parts.flatMap fun part =>
    match part with
    | .output text => text
    | .complaint _ => []

def complaints (p : Printed) : List Octets :=
  p.parts.filterMap fun part =>
    match part with
    | .output _ => none
    | .complaint text => some text

end Printed

def printf (flavour : Printf.Flavour) (format : Octets) (arguments : List Octets) : Printed :=
  let r := Printf.rounds flavour (Printf.pieces flavour format) (arguments.length + 1) { arguments }
  ⟨r.close.reverse, r.status, if r.stopped then [] else r.arguments⟩

end LoginSession.Utility

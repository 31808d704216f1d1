import LoginSession.Utility.Program

namespace LoginSession.Utility.Seq

open Host (Octets)
open Program (Circumstances)
open Sequence (Operand)

def options : Options.Table where
  letters := [('f', .something), ('s', .something), ('w', .nothing)]
  names :=
    [("equal-width", 'w', .nothing), ("format", 'f', .something), ("separator", 's', .something)]

structure Settings where
  format : Option Octets := none
  separator : Octets := ['\n']
  equalWidth : Bool := false

def apply (s : Settings) (g : Options.Given) : Settings :=
  match g.letter with
  | 'f' => { s with format := some g.text }
  | 's' => { s with separator := g.text }
  | _ => { s with equalWidth := true }

def isNegative : Octets → Bool
  | '-' :: c :: _ => c = '.' || c.isDigit
  | _ => false

/-- Reads options one word after the other, so that a negative number ends them. An option with its
argument in the next word takes two. -/
def readWords (given : List Options.Given) : List Octets → Options.Read
  | [] => ⟨given, [], none⟩
  | word :: rest =>
    if isNegative word then ⟨given, word :: rest, none⟩
    else
      let one := Options.read options false [word]
      if !one.operands.isEmpty || word = ['-', '-'] then
        ⟨given, if word = ['-', '-'] then rest else word :: rest, none⟩
      else
        match one.fault, rest with
        | none, rest => readWords (given ++ one.given) rest
        | some fault, [] => ⟨given ++ one.given, [], some fault⟩
        | some fault, argument :: rest =>
          let two := Options.read options false [word, argument]
          if two.fault.isSome then ⟨given ++ one.given, [], some fault⟩
          else readWords (given ++ two.given) rest

inductive Fault where
  | usage (text : Octets)
  | format (text : Octets)

def operand (text : Octets) : Except Fault Operand :=
  match Sequence.readNumber? text with
  | none => .error (.usage ("invalid floating point argument: ".toList ++ Quoting.phrase text))
  | some value =>
    if Sequence.isUndefined value then
      .error (.usage ("invalid 'not-a-number' argument: ".toList ++ Quoting.phrase text))
    else .ok (Operand.of text value)

def numbers (operands : List Octets) : Except Fault (Operand × Operand × Operand) := do
  match operands with
  | [last] => return (Sequence.one, Sequence.one, ← operand last)
  | [first, last] =>
    let first ← operand first
    return (first, Sequence.one, ← operand last)
  | first :: step :: last :: _ =>
    let first ← operand first
    let stride ← operand step
    if stride.value.isZero then
      throw (.usage ("invalid Zero increment value: ".toList ++ Quoting.phrase step))
    return (first, stride, ← operand last)
  | [] => throw (.usage "missing operand".toList)

def course (s : Settings) (operands : List Octets) : Except Fault (Option Sequence.Course) := do
  if operands.isEmpty then throw (.usage "missing operand".toList)
  if 3 < operands.length then
    throw (.usage ("extra operand ".toList ++ Quoting.phrase ((operands.drop 3).headD [])))
  let format ← match s.format with
    | none => pure none
    | some text =>
      match Sequence.readFormat text with
      | .ok format => pure (some format)
      | .error fault => throw (.format ("format ".toList ++ Quoting.phrase text ++ fault))
  if s.equalWidth && format.isSome then
    throw (.usage
      "format string may not be specified when printing equal width strings".toList)
  let (first, step, last) ← numbers operands
  let isPlain := !s.equalWidth && format.isNone && s.separator.length = 1
  return Sequence.course format s.equalWidth isPlain first step last

def plan (c : Circumstances) : Program :=
  let read := readWords [] c.arguments
  let s := read.given.foldl apply {}
  let tasks := match read.fault with
    | some fault => Program.refuse c.name fault 1
    | none =>
      match course s read.operands with
      | .error (.usage fault) => Program.refuse c.name fault 1
      | .error (.format fault) => Program.fail c.name fault 1
      | .ok none => [.exit 0]
      | .ok (some course) => [.count s.separator course, .exit 0]
  { name := c.name, tasks }

end LoginSession.Utility.Seq

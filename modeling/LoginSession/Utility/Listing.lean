import LoginSession.Host.Octets

namespace LoginSession.Utility

open Host (Octets)

namespace Listing

structure Style where
  numbers : Bool := false
  skipsBlank : Bool := false
  squeeze : Bool := false
  showEnds : Bool := false
  showTabs : Bool := false
  showHidden : Bool := false
  deriving DecidableEq

inductive Position where
  | inside
  | start (blanks : Nat)
  deriving DecidableEq

structure State where
  style : Style
  position : Position := .start 0
  number : Nat := 0
  /-- A carriage return has been read that may turn out to end a line. -/
  heldReturn : Bool := false

def numberText (n : Nat) : Octets :=
  let digits := Octets.ofNat n
  List.replicate (6 - digits.length) ' ' ++ digits ++ ['\t']

def lowText (style : Style) (c : Char) : Octets :=
  if c = '\t' && !style.showTabs then [c]
  else if c = '\x7f' then ['^', '?']
  else if c < ' ' then ['^', Char.ofNat (c.toNat + 64)]
  else [c]

def charText (style : Style) (c : Char) : Octets :=
  if style.showHidden then
    if c.toNat < 128 then lowText style c
    else ['M', '-'] ++ lowText { style with showTabs := true } (Char.ofNat (c.toNat - 128))
  else if c = '\t' && style.showTabs then ['^', 'I']
  else [c]

def withNumber (s : State) (numbered : Bool) : State × Octets :=
  if numbered then ({ s with number := s.number + 1 }, numberText (s.number + 1)) else (s, [])

def endLine (s : State) : State × Octets :=
  let held := s.heldReturn
  let s := { s with heldReturn := false }
  let text := (if held then ['^', 'M'] else []) ++ (if s.style.showEnds then ['$'] else []) ++ ['\n']
  match s.position with
  | .inside => ({ s with position := .start 0 }, text)
  | .start blanks =>
    let s := { s with position := .start (min 2 (blanks + 1)) }
    if 0 < blanks && s.style.squeeze then (s, [])
    else
      let (s, number) := withNumber s (s.style.numbers && !s.style.skipsBlank)
      (s, number ++ text)

def putChar (s : State) (c : Char) : State × Octets :=
  let (s, number) := match s.position with
    | .start _ => withNumber s s.style.numbers
    | .inside => (s, [])
  let held : Octets := if s.heldReturn then ['\x0d'] else []
  let s := { s with position := .inside, heldReturn := false }
  if c = '\x0d' && s.style.showEnds && !s.style.showHidden then
    ({ s with heldReturn := true }, held ++ number)
  else (s, held ++ number ++ charText s.style c)

def step (s : State) (c : Char) : State × Octets := if c = '\n' then endLine s else putChar s c

def feedFrom (s : State) (taken : List Octets) : Octets → State × Octets
  | [] => (s, taken.reverse.flatten)
  | c :: rest =>
    let (s, text) := step s c
    feedFrom s (text :: taken) rest

def feed (s : State) (text : Octets) : State × Octets := feedFrom s [] text

def finish (s : State) : State × Octets :=
  ({ s with heldReturn := false }, if s.heldReturn then ['\x0d'] else [])

end Listing

end LoginSession.Utility

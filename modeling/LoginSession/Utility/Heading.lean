import LoginSession.Host.Octets

namespace LoginSession.Utility

open Host (Octets)

namespace Heading

structure Request where
  count : Nat := 10
  lines : Bool := true
  fromEnd : Bool := false
  lineEnd : UInt8 := 10
  deriving DecidableEq

structure State where
  request : Request
  named : Bool := false
  isFirst : Bool := true
  left : Nat := 0
  /-- What has been read that may have to be left out, the last run first. -/
  held : List (List UInt8) := []

def start (s : State) (name : Octets) : State × Octets :=
  let title := (if s.isFirst then [] else ['\n']) ++ "==> ".toList ++ name ++ " <==\n".toList
  ({ s with isFirst := false, left := s.request.count, held := [] }, if s.named then title else [])

def isDone (s : State) : Bool := !s.request.fromEnd && s.left = 0

def takeLines (lineEnd : UInt8) : Nat → List UInt8 → List UInt8 → List UInt8 × Nat × List UInt8
  | 0, taken, rest => (taken.reverse, 0, rest)
  | n, taken, [] => (taken.reverse, n, [])
  | n + 1, taken, b :: rest =>
    if b = lineEnd then takeLines lineEnd n (b :: taken) rest
    else takeLines lineEnd (n + 1) (b :: taken) rest
  termination_by _ _ bytes => bytes.length

def feed (s : State) (bytes : List UInt8) : State × List UInt8 × Nat :=
  if s.request.fromEnd then ({ s with held := bytes :: s.held }, [], 0)
  else if s.request.lines then
    let (output, left, rest) := takeLines s.request.lineEnd s.left [] bytes
    ({ s with left }, output, rest.length)
  else
    let output := bytes.take s.left
    ({ s with left := s.left - output.length }, output, bytes.length - output.length)

/-- Text without its last lines. A last line that has no end counts as one. -/
def dropLines (lineEnd : UInt8) (n : Nat) (text : List UInt8) : List UInt8 :=
  let ends := text.filter (· = lineEnd) |>.length
  let lines := if text.getLast?.any (· ≠ lineEnd) then ends + 1 else ends
  if n = 0 then text else (takeLines lineEnd (lines - n) [] text).1

def finish (s : State) : State × List UInt8 :=
  let text := s.held.reverse.flatten
  let n := s.request.count
  let output :=
    if !s.request.fromEnd then []
    else if s.request.lines then dropLines s.request.lineEnd n text
    else text.take (text.length - n)
  ({ s with held := [] }, output)

end Heading

end LoginSession.Utility

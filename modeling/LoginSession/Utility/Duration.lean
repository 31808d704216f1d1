import LoginSession.Utility.Floating

namespace LoginSession.Utility

open Host (Octets)

namespace Duration

def unit? : Octets → Option Nat
  | [] | ['s'] => some 1
  | ['m'] => some 60
  | ['h'] => some 3600
  | ['d'] => some 86400
  | _ => none

def isNegative (x : Floating) : Bool := x.below .zero

def isUndefined : Floating → Bool
  | .undefined _ => true
  | _ => false

def read? (text : Octets) : Option Floating := do
  let found ← Floating.read? .double text
  let unit ← unit? found.rest
  if isNegative found.value || isUndefined found.value then none
  else return found.value.multiply .double (Floating.ofNat .double unit)

def total (times : List Floating) : Floating := times.foldl (Floating.add .double) .zero

/-- Microseconds, rounded up; none for a time without end. -/
def microseconds? : Floating → Option Nat
  | .finite _ m e =>
    let (numerator, denominator) := Floating.scale (m * 1000000) 1 e
    some ((numerator + denominator - 1) / denominator)
  | _ => none

end Duration

end LoginSession.Utility

import LoginSession.Utility.Escape

namespace LoginSession.Utility

open Host (Octets)

namespace OctetSet

def classes : List (String × (Char → Bool)) :=
  [("alpha", Char.isAlpha), ("digit", Char.isDigit), ("alnum", Char.isAlphanum),
   ("upper", Char.isUpper), ("lower", Char.isLower),
   ("space", fun c => c = ' ' || ('\t' ≤ c && c ≤ '\r')),
   ("blank", fun c => c = ' ' || c = '\t'),
   ("cntrl", fun c => c < ' ' || c = '\x7f'),
   ("print", fun c => ' ' ≤ c && c < '\x7f'),
   ("graph", fun c => ' ' < c && c < '\x7f'),
   ("punct", fun c => ' ' < c && c < '\x7f' && !c.isAlphanum),
   ("xdigit", fun c => (Escape.hexDigit? c).isSome)]

def class? (name : Octets) : Option (Char → Bool) := classes.lookup (String.ofList name)

def all : Octets := (List.range 256).map Char.ofNat

def ofClass (isMember : Char → Bool) : Octets := all.filter isMember

def range (low high : Char) : Octets :=
  (List.range (high.toNat + 1 - low.toNat)).map fun i => Char.ofNat (low.toNat + i)

def complementOf (set : Octets) : Octets := all.filter fun c => !set.contains c

end OctetSet

end LoginSession.Utility

import LoginSession.Text.Utf8

namespace LoginSession.Host

/-- Text as the operating system passes it: a sequence of octets with no encoding of its own. Each
octet is kept as the character of the same number, so that ASCII syntax can be matched as written.
-/
abbrev Octets := List Char

namespace Octets

def ofBytes (bytes : List UInt8) : Octets := bytes.map fun b => Char.ofNat b.toNat

def toBytes (o : Octets) : List UInt8 := o.map fun c => UInt8.ofNat c.toNat

def ofString (s : String) : Octets := ofBytes s.toUTF8.toList

def toText (o : Octets) : String := String.ofList (Text.decodeLossy (toBytes o))

def ofNat (n : Nat) : Octets := (toString n).toList

def ofInt (n : Int) : Octets := (toString n).toList

end Octets

end LoginSession.Host

import LoginSession.Host.Octets

namespace LoginSession.Shell

open Host (Octets)

namespace Pattern

/-- The members of a class in brackets. Bytes from 128 on come before all others. -/
inductive Member where
  | range (low high : Char)
  | named (name : String)
  deriving DecidableEq, Repr

inductive Item where
  | char (c : Char)
  | any
  | many
  | oneOf (negated : Bool) (members : List Member)
  deriving DecidableEq, Repr

def isGraphic (c : Char) : Bool := '!' ≤ c && c ≤ '~'

def isSpace (c : Char) : Bool := c = ' ' || ('\t' ≤ c && c ≤ '\x0d')

def classes : List (String × (Char → Bool)) :=
  [("alnum", Char.isAlphanum),
   ("cntrl", fun c => c < ' ' || c = '\x7f'),
   ("lower", Char.isLower),
   ("space", isSpace),
   ("alpha", Char.isAlpha),
   ("digit", Char.isDigit),
   ("print", fun c => ' ' ≤ c && c ≤ '~'),
   ("upper", Char.isUpper),
   ("blank", fun c => c = ' ' || c = '\t'),
   ("graph", isGraphic),
   ("punct", fun c => isGraphic c && !c.isAlphanum),
   ("xdigit", fun c => c.isDigit || ('a' ≤ c && c ≤ 'f') || ('A' ≤ c && c ≤ 'F'))]

def rank (c : Char) : Int := if c.toNat < 128 then c.toNat else (c.toNat : Int) - 256

def Member.holds (c : Char) : Member → Bool
  | .range low high => rank low ≤ rank c && rank c ≤ rank high
  | .named name => (classes.lookup name).any fun test => test c

def className? (text : Octets) : Option (String × Octets) :=
  match text with
  | ':' :: text =>
    let name := String.ofList (text.takeWhile Char.isAlpha)
    match text.dropWhile Char.isAlpha with
    | ':' :: ']' :: rest => if (classes.lookup name).isSome then some (name, rest) else none
    | _ => none
  | _ => none

def unescape : Octets → Octets
  | '\\' :: rest => rest
  | text => text

def readMember (text : Octets) : Option (Member × Octets) :=
  let single (text : Octets) : Option (Member × Octets) :=
    match unescape text with
    | [] => none
    | low :: '-' :: rest =>
      match rest with
      | [] => none
      | ']' :: _ => some (.range low low, '-' :: rest)
      | rest =>
        match unescape rest with
        | [] => none
        | high :: rest => some (.range low high, rest)
    | c :: rest => some (.range c c, rest)
  match text with
  | '[' :: rest =>
    match className? rest with
    | some (name, rest) => some (.named name, rest)
    | none => single text
  | text => single text

/-- The members up to the closing bracket, and what follows it. A bracket that comes first is a
member. -/
def readMembers : Nat → List Member → Octets → Option (List Member × Octets)
  | 0, _, _ => none
  | fuel + 1, found, text => do
    let (member, rest) ← readMember text
    match rest with
    | ']' :: rest => return (member :: found, rest)
    | rest => readMembers fuel (member :: found) rest

def readClass (text : Octets) : Option (Item × Octets) :=
  let read (negated : Bool) (text : Octets) : Option (Item × Octets) :=
    (readMembers text.length [] text).map fun (members, rest) => (.oneOf negated members, rest)
  match text with
  | '!' :: rest => read true rest
  | text => read false text

def itemsFrom : Nat → Octets → List Item
  | 0, _ | _, [] => []
  | fuel + 1, c :: rest =>
    match c, rest with
    | '?', rest => .any :: itemsFrom fuel rest
    | '*', rest => .many :: itemsFrom fuel rest
    | '[', rest =>
      match readClass rest with
      | some (item, rest) => item :: itemsFrom fuel rest
      | none => .char '[' :: itemsFrom fuel rest
    | '\\', c :: rest => .char c :: itemsFrom fuel rest
    | c, rest => .char c :: itemsFrom fuel rest

def ofText (text : Octets) : List Item := itemsFrom text.length text

def Item.takes : Item → Char → Bool
  | .char d, c => c = d
  | .any, _ | .many, _ => true
  | .oneOf negated members, c => members.any (·.holds c) != negated

/-- Every way to leave out a beginning, the whole first. -/
def tails : Octets → List Octets
  | [] => [[]]
  | c :: rest => (c :: rest) :: tails rest

def accepts : List Item → Octets → Bool
  | [], text => text.isEmpty
  | .many :: rest, text => (tails text).any fun tail => accepts rest tail
  | item :: rest, text =>
    match text with
    | [] => false
    | c :: after => item.takes c && accepts rest after

end Pattern

end LoginSession.Shell

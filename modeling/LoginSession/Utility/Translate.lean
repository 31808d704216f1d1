import LoginSession.Utility.OctetSet
import LoginSession.Utility.Quoting

namespace LoginSession.Utility

open Host (Octets)

namespace Translate

inductive Element where
  | char (c : Char)
  | range (first last : Char)
  | named (name : Octets) (isMember : Char → Bool)
  | same (c : Char)
  | repeated (c : Char) (count : Option Nat)

abbrev Marked := Char × Bool

def trailingBackslash : Octets :=
  "warning: an unescaped backslash at end of string is not portable".toList

def ambiguousOctal (digits : Octets) : Octets :=
  "warning: the ambiguous octal escape \\".toList ++ digits ++
    " is being\n\tinterpreted as the 2-byte sequence \\0".toList ++ digits.take 2 ++
    ", ".toList ++ digits.drop 2

/-- The character that up to three octal digits mean, with what follows them and a warning. Three
digits that mean none are read as two. -/
def readOctal (text : Octets) : Char × Octets × List Octets :=
  let digits := (text.take 3).takeWhile fun c => (Escape.octalDigit? c).isSome
  let value (digits : Octets) : Nat := digits.foldl (fun n c => n * 8 + (c.toNat - 0x30)) 0
  if value digits < 256 then (Char.ofNat (value digits), text.drop digits.length, [])
  else (Char.ofNat (value (digits.take 2)), text.drop 2, [ambiguousOctal digits])

def unescape : Nat → List Marked → List Octets → Octets → List Marked × List Octets
  | 0, taken, warnings, _ => (taken.reverse, warnings)
  | _, taken, warnings, [] => (taken.reverse, warnings)
  | _, taken, warnings, ['\\'] =>
    ((('\\', false) :: taken).reverse, warnings ++ [trailingBackslash])
  | fuel + 1, taken, warnings, '\\' :: c :: rest =>
    if (Escape.octalDigit? c).isSome then
      let (c, rest, more) := readOctal (c :: rest)
      unescape fuel ((c, true) :: taken) (warnings ++ more) rest
    else unescape fuel (((Escape.simple? c).getD c, true) :: taken) warnings rest
  | fuel + 1, taken, warnings, c :: rest => unescape fuel ((c, false) :: taken) warnings rest

def visible (text : Octets) : Octets :=
  text.flatMap fun c =>
    if c = '\\' then ['\\', '\\'] else if Quoting.isPrintable c then [c] else Quoting.escape c

def visibleChar (c : Char) : Octets :=
  if Quoting.isPrintable c then [c]
  else '\\' :: [c.toNat / 64, c.toNat / 8 % 8, c.toNat % 8].map Nat.digitChar

def cutClosing (delimiter : Char) : List Marked → Option (Octets × List Marked)
  | (c, escaped) :: (d, escapedBracket) :: rest =>
    if c = delimiter && !escaped && d = ']' && !escapedBracket then some ([], rest)
    else (cutClosing delimiter ((d, escapedBracket) :: rest)).map fun (text, after) =>
      (c :: text, after)
  | _ => none

def isRepeatCount : List Marked → Bool
  | ('*', false) :: rest =>
    (rest.dropWhile fun (c, escaped) => c.isDigit && !escaped).head? = some (']', false)
  | _ => false

def readCount (digits : Octets) : Except Octets (Option Nat) :=
  let base := if digits.head? = some '0' then 8 else 10
  let value := digits.foldl (fun n c => n * base + (c.toNat - 0x30)) 0
  let isDigit (c : Char) : Bool := c.isDigit && c.toNat - 0x30 < base
  if digits.isEmpty then .ok none
  else if digits.all isDigit && value ≤ 18446744073709551614 then
    .ok (if value = 0 then none else some value)
  else
    .error ("invalid repeat count ".toList ++ Quoting.phrase (visible digits) ++
      " in [c*n] construct".toList)

def readRepeat (es : List Marked) : Except Octets (Option (Element × List Marked)) :=
  match es with
  | (c, _) :: ('*', false) :: rest =>
    let digits := rest.takeWhile fun (d, escaped) => d ≠ ']' && !escaped
    match rest.drop digits.length with
    | (']', false) :: after => do
      let count ← readCount (digits.map (·.1))
      return some (.repeated c count, after)
    | _ => .ok none
  | _ => .ok none

/-- A class or a character between a pair of delimiters. It may also turn out to be a repetition of
the delimiter. -/
def readNamed (delimiter : Char) (operand : Octets) (inside : List Marked) :
    Except Octets (Option Element) :=
  if operand.isEmpty then
    .error (if delimiter = ':' then "missing character class name '[::]'".toList
      else "missing equivalence class character '[==]'".toList)
  else
    match delimiter, operand with
    | ':', name =>
      match OctetSet.class? name with
      | some isMember => .ok (some (.named name isMember))
      | none =>
        if isRepeatCount inside then .ok none
        else .error ("invalid character class ".toList ++ Quoting.phrase (visible name))
    | _, [c] => .ok (some (.same c))
    | _, text =>
      if isRepeatCount inside then .ok none
      else .error (visible text ++ ": equivalence class operand must be a single character".toList)

def readElements : Nat → List Element → List Marked → Except Octets (List Element)
  | 0, taken, _ => .ok taken.reverse
  | fuel + 1, taken, es =>
    match es with
    | (a, escaped) :: (b, escapedNext) :: (c, escapedLast) :: rest => do
      let opens := a = '[' && !escaped
      let inside := (c, escapedLast) :: rest
      let named ← if opens && (b = ':' || b = '=') && !escapedNext then
          match cutClosing b inside with
          | some (operand, after) =>
            (← readNamed b operand inside).elim (pure none) fun found => pure (some (found, after))
          | none => pure none
        else pure none
      let found ← match named with
        | some found => pure (some found)
        | none => if opens then readRepeat ((b, escapedNext) :: inside) else pure none
      match found with
      | some (element, after) => readElements fuel (element :: taken) after
      | none =>
        if b = '-' && !escapedNext then
          if c < a then
            throw ("range-endpoints of '".toList ++ visibleChar a ++ '-' :: visibleChar c ++
              "' are in reverse collating sequence order".toList)
          else readElements fuel (.range a c :: taken) rest
        else readElements fuel (.char a :: taken) ((b, escapedNext) :: inside)
    | es => .ok (taken.reverse ++ es.map fun (c, _) => .char c)

def readSet (text : Octets) : List Octets × Except Octets (List Element) :=
  let (marked, warnings) := unescape (text.length + 1) [] [] text
  (warnings, readElements (marked.length + 1) [] marked)

def Element.members : Element → Octets
  | .char c | .same c => [c]
  | .range first last => OctetSet.range first last
  | .named _ isMember => OctetSet.ofClass isMember
  | .repeated c count => List.replicate (min (count.getD 0) 65536) c

def isEndless : Element → Bool
  | .repeated _ none => true
  | _ => false

def isCase : Element → Bool
  | .named name _ => name = "upper".toList || name = "lower".toList
  | _ => false

def isNamed : Element → Bool
  | .named .. => true
  | _ => false

def isSame : Element → Bool
  | .same _ => true
  | _ => false

def members (set : List Element) : Octets := set.flatMap Element.members

def fill (wanted : Nat) (set : List Element) : List Element :=
  let missing := wanted - (members set).length
  if (set.filter isEndless).length = 1 then
    set.map fun element =>
      match element with
      | .repeated c none => .repeated c (some missing)
      | element => element
  else set

/-- Walks over two sets at once. Where a class of letters of one case stands in the second set, one
must stand in the first. -/
def isAligned : Nat → List Element → List Element → Bool
  | 0, _, _ => true
  | fuel + 1, first, second =>
    match first, second with
    | _, [] => true
    | [], b :: _ => !isCase b
    | a :: restA, b :: restB =>
      if isCase b then isCase a && isAligned fuel restA restB
      else
        let n := min a.members.length b.members.length
        let cut (e : Element) (rest : List Element) : List Element :=
          (e.members.drop n).map .char ++ rest
        -- What is left of a class is no class any more.
        isAligned fuel (cut a restA) (cut b restB)

structure Request where
  complement : Bool := false
  delete : Bool := false
  squeeze : Bool := false
  truncate : Bool := false

def extend (length : Nat) (second : List Element) : Except Octets Octets :=
  let known := members second
  match second.getLast?, known.getLast? with
  | none, _ | _, none =>
    .error "when not truncating set1, string2 must be non-empty".toList
  | some last, some c =>
    if isNamed last then
      .error ("when translating with string1 longer than string2,\n" ++
        "the latter string must not end with a character class").toList
    else .ok (known ++ List.replicate (length - known.length) c)

def pair (r : Request) (first second : List Element) : Except Octets (Octets × Octets) := do
  let source := if r.complement then OctetSet.complementOf (members first) else members first
  if second.any isSame then
    throw "[=c=] expressions may not appear in string2 when translating".toList
  if second.any fun e => isNamed e && !isCase e then
    throw ("when translating, the only character classes that may appear in\n" ++
      "string2 are 'upper' and 'lower'").toList
  if !r.complement && !isAligned (2 * (source.length + (members second).length) + 2) first second then
    throw "misaligned [:upper:] and/or [:lower:] construct".toList
  let target ← if (members second).length < source.length && !r.truncate then
      extend source.length second
    else pure (members second)
  let isUniform := target.length = source.length && target.all (some · = target.head?)
  if r.complement && first.any isNamed && !isUniform then
    throw ("when translating with complemented character classes,\n" ++
      "string2 must map all characters in the domain to one").toList
  return (source, target)

/-- A table with 256 entries says what each octet becomes, if anything; `squeezed` says which ones
are printed once where they follow each other. -/
structure Table where
  targets : Array (Option Char)
  squeezed : Array Bool

def tableOf (target : Char → Option Char) (isSqueezed : Char → Bool) : Table :=
  ⟨(OctetSet.all.map target).toArray, (OctetSet.all.map isSqueezed).toArray⟩

def table (r : Request) (first : List Element) (second : Option (List Element)) :
    Except Octets Table := do
  if first.any isEndless then
    throw "the [c*] repeat construct may not appear in string1".toList
  let chosen := members first
  let chosen := if r.complement then OctetSet.complementOf chosen else chosen
  match second with
  | none =>
    if r.delete then
      return tableOf (fun c => if chosen.contains c then none else some c) fun _ => false
    else return tableOf some chosen.contains
  | some second =>
    if 1 < (second.filter isEndless).length then
      throw "only one [c*] repeat construct may appear in string2".toList
    if r.delete then
      if second.any isEndless then
        throw "the [c*] construct may appear in string2 only when translating".toList
      return tableOf (fun c => if chosen.contains c then none else some c) (members second).contains
    else
      let second := fill chosen.length second
      let (source, target) ← pair r first second
      let pairs := (source.zip target).reverse
      return tableOf (fun c => some ((pairs.lookup c).getD c))
        fun c => r.squeeze && (members second).contains c

def apply (t : Table) : Option Char → List UInt8 → List UInt8 → List UInt8 × Option Char
  | last, taken, [] => (taken.reverse, last)
  | last, taken, b :: rest =>
    match (t.targets[b.toNat]?).join with
    | none => apply t last taken rest
    | some c =>
      if last = some c && (t.squeezed[c.toNat]?).getD false then apply t last taken rest
      else apply t (some c) (UInt8.ofNat c.toNat :: taken) rest

end Translate

end LoginSession.Utility

import LoginSession.Host.Octets

namespace LoginSession.Utility

open Host (Octets)

namespace Quoting

def isPrintable (c : Char) : Bool := ' ' ≤ c && c ≤ '~'

def escape (c : Char) : Octets :=
  let letters : List (Char × Char) :=
    [('\x07', 'a'), ('\x08', 'b'), ('\x0c', 'f'), ('\n', 'n'), ('\x0d', 'r'), ('\t', 't'),
     ('\x0b', 'v')]
  match letters.lookup c with
  | some letter => ['\\', letter]
  | none =>
    let digit (n : Nat) : Char := Char.ofNat (0x30 + n % 8)
    ['\\', digit (c.toNat / 64), digit (c.toNat / 8), digit c.toNat]

def phrase (text : Octets) : Octets :=
  let one (c : Char) : Octets :=
    if c = '\'' ∨ c = '\\' then ['\\', c] else if isPrintable c then [c] else escape c
  ['\''] ++ text.flatMap one ++ ['\'']

def isSpecial (c : Char) : Bool := "!\"$&()*;<=>[^\x60|?\\' ".toList.contains c

def isPlain (text : Octets) : Bool :=
  match text with
  | [] => false
  | ['\x7b'] | ['\x7d'] => false
  | c :: _ => c ≠ '#' && c ≠ '~' && text.all fun c => isPrintable c && !isSpecial c

/-- Double quotes do as well: nothing in the text means anything between them. -/
def suitsDouble (text : Octets) : Bool :=
  text.all fun c =>
    isPrintable c && (c = '\'' || c = ' ' || !isSpecial c) && c ≠ '#' && c ≠ '~'

def single (text : Octets) : Octets := '\'' :: go false text
where
  go (escaping : Bool) : Octets → Octets
    | [] => ['\'']
    | c :: rest =>
      if isPrintable c then
        let close := if escaping then ['\'', '\''] else []
        if c = '\'' then close ++ ['\'', '\\', '\''] ++ go false rest
        else close ++ c :: go false rest
      else (if escaping then [] else ['\'', '$', '\'']) ++ escape c ++ go true rest

def word (text : Octets) : Octets :=
  if text.contains '\'' && suitsDouble text then ['"'] ++ text ++ ['"'] else single text

def wordIfNeeded (text : Octets) : Octets := if isPlain text then text else word text

end Quoting

end LoginSession.Utility

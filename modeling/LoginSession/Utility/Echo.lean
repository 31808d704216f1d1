import LoginSession.Utility.Escape

namespace LoginSession.Utility

open Host (Octets)

def joinWords : List Octets → Octets
  | [] => []
  | [last] => last
  | first :: rest => first ++ ' ' :: joinWords rest

namespace Echo

def shellRules : EscapeRules := { extended := false, longOctal := true, stops := true }

def programRules : EscapeRules := { extended := true, longOctal := true, stops := true }

def finish (rules : Option EscapeRules) (newline : Bool) (words : List Octets) : Octets :=
  let text := joinWords words
  let (text, ending) := match rules with
    | some rules => unescape rules text
    | none => (text, .complete)
  if newline && ending = .complete then text ++ ['\n'] else text

def ofShell (words : List Octets) : Octets :=
  match words with
  | ['-', 'n'] :: rest => finish (some shellRules) false rest
  | words => finish (some shellRules) true words

def isOptions : Octets → Bool
  | '-' :: c :: rest => (c :: rest).all fun c => c = 'n' || c = 'e' || c = 'E'
  | _ => false

def ofProgramFrom (newline escapes : Bool) : List Octets → Octets
  | [] => finish none newline []
  | word :: rest =>
    if isOptions word then
      ofProgramFrom (newline && !word.contains 'n')
        (word.foldl (fun escapes c => if c = 'e' then true else if c = 'E' then false else escapes)
          escapes) rest
    else finish (if escapes then some programRules else none) newline (word :: rest)

def ofProgram (words : List Octets) : Octets := ofProgramFrom true false words

end Echo

end LoginSession.Utility

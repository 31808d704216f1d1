namespace LoginSession

/-- Numbers are kept apart by what they can denote: an integer, or a literal with a point, an
exponent or a minus before zero. A string literal may name half of a surrogate pair; such a literal
is well formed and denotes no text. -/
inductive Json where
  | null
  | boolean (b : Bool)
  | integer (n : Int)
  | real (literal : String)
  | string (text : Option String)
  | array (elements : List Json)
  | object (members : List (Option String × Json))

namespace Json

def isSpace (c : Char) : Bool := c = ' ' || c = '\t' || c = '\n' || c = '\r'

def skip (cs : List Char) : List Char := cs.dropWhile isSpace

end Json

end LoginSession

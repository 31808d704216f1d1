import LoginSession.Json.Value

namespace LoginSession.Json

def hexDigit (n : Nat) : Char := if n < 10 then Char.ofNat (n + 0x30) else Char.ofNat (n + 0x57)

/-- Quotes, backslashes and the control characters below space are escaped, and nothing else. -/
def escapeChar (c : Char) : List Char :=
  if c = '"' then ['\\', '"']
  else if c = '\\' then ['\\', '\\']
  else if c = '\x08' then ['\\', 'b']
  else if c = '\t' then ['\\', 't']
  else if c = '\n' then ['\\', 'n']
  else if c = '\x0c' then ['\\', 'f']
  else if c = '\r' then ['\\', 'r']
  else if c.toNat < 0x20 then
    ['\\', 'u', '0', '0', hexDigit (c.toNat / 16), hexDigit (c.toNat % 16)]
  else [c]

def quote (text : String) : String :=
  String.ofList ('"' :: text.toList.flatMap escapeChar ++ ['"'])

/-- A literal that denotes no text is written empty: printers are given values that denote one. -/
def quote? (text : Option String) : String := quote (text.getD "")

mutual

def compact : Json → String
  | .null => "null"
  | .boolean b => if b then "true" else "false"
  | .integer n => toString n
  | .real literal => literal
  | .string text => quote? text
  | .array elements => "[" ++ compactElements elements ++ "]"
  | .object members => "\x7b" ++ compactMembers members ++ "\x7d"

def compactElements : List Json → String
  | [] => ""
  | [value] => compact value
  | value :: rest => compact value ++ "," ++ compactElements rest

def compactMembers : List (Option String × Json) → String
  | [] => ""
  | [(name, value)] => quote? name ++ ":" ++ compact value
  | (name, value) :: rest => quote? name ++ ":" ++ compact value ++ "," ++ compactMembers rest

end

def newline (depth : Nat) : String := "\n" ++ String.ofList (List.replicate (2 * depth) ' ')

mutual

def pretty (depth : Nat) : Json → String
  | .array (value :: rest) =>
    "[" ++ newline (depth + 1) ++ prettyElements (depth + 1) (value :: rest) ++ newline depth ++ "]"
  | .object (member :: rest) =>
    "\x7b" ++ newline (depth + 1) ++ prettyMembers (depth + 1) (member :: rest) ++
      newline depth ++ "\x7d"
  | value => compact value

def prettyElements (depth : Nat) : List Json → String
  | [] => ""
  | [value] => pretty depth value
  | value :: rest => pretty depth value ++ "," ++ newline depth ++ prettyElements depth rest

def prettyMembers (depth : Nat) : List (Option String × Json) → String
  | [] => ""
  | [(name, value)] => quote? name ++ ": " ++ pretty depth value
  | (name, value) :: rest =>
    quote? name ++ ": " ++ pretty depth value ++ "," ++ newline depth ++ prettyMembers depth rest

end

end LoginSession.Json

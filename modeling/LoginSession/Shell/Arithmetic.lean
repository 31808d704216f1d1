import LoginSession.Shell.Source

namespace LoginSession.Shell

open Host (Octets)

namespace Arithmetic

inductive Token where
  | finish
  | number (n : Int64)
  | name (s : Octets)
  | operator (s : String)
  | stray
  deriving DecidableEq

def operators : List String :=
  ["<<=", ">>=", "||", "&&", "==", "!=", "<=", ">=", "<<", ">>", "+=", "-=", "*=", "/=", "%=", "&=",
   "^=", "|=", "|", "^", "&", "<", ">", "+", "-", "*", "/", "%", "!", "~", "(", ")", "?", ":", "="]

def digitOf? (base : Nat) (c : Char) : Option Nat :=
  let n :=
    if c.isDigit then c.toNat - 0x30
    else if 'a' ≤ c ∧ c ≤ 'f' then c.toNat - 0x57
    else if 'A' ≤ c ∧ c ≤ 'F' then c.toNat - 0x37
    else base
  if n < base then some n else none

/-- The number that stands at the beginning of a text and what follows it: decimal, octal after a
leading zero or hexadecimal after `0x`. -/
def leadingNumber (text : Octets) : Nat × Octets :=
  let (base, digits) := match text with
    | '0' :: 'x' :: c :: _ | '0' :: 'X' :: c :: _ =>
      if (digitOf? 16 c).isSome then (16, text.drop 2) else (8, text)
    | '0' :: _ => (8, text)
    | _ => (10, text)
  let isDigit (c : Char) : Bool := (digitOf? base c).isSome
  ((digits.takeWhile isDigit).foldl (fun n c => n * base + (digitOf? base c).getD 0) 0,
    digits.dropWhile isDigit)

def maxNumber : Nat := 9223372036854775807

def isSpace (c : Char) : Bool := c = ' ' || ('\t' ≤ c && c ≤ '\x0d')

def readNumber? (text : Octets) : Option Int64 :=
  let text := text.dropWhile isSpace
  let (negative, digits) := match text with
    | '-' :: digits => (true, digits)
    | '+' :: digits => (false, digits)
    | digits => (false, digits)
  match digits with
  | [] => if text.isEmpty then some 0 else none
  | c :: _ =>
    let (n, rest) := leadingNumber digits
    if !c.isDigit || !rest.all isSpace then none
    else if negative then if n ≤ maxNumber + 1 then some (Int64.ofInt (-n)) else none
    else if n ≤ maxNumber then some (Int64.ofNat n) else none

def nextToken (text : Octets) : Token × Octets :=
  let text := text.dropWhile fun c => c = ' ' || c = '\t' || c = '\n'
  match text with
  | [] => (.finish, [])
  | c :: _ =>
    if c.isDigit then
      let (n, rest) := leadingNumber text
      (.number (Int64.ofNat (min n maxNumber)), rest)
    else if isNameStart c then (.name (text.takeWhile isNameChar), text.dropWhile isNameChar)
    else
      match operators.find? fun o => o.toList.isPrefixOf text with
      | some o => (.operator o, text.drop o.length)
      | none => (.stray, text)

/-- How closely binary operators bind, the closest ones first. -/
def precedence? (token : Token) : Option Nat :=
  match token with
  | .operator o =>
    [("*", 0), ("/", 0), ("%", 0), ("+", 1), ("-", 1), ("<<", 2), (">>", 2), ("<", 3), ("<=", 3),
     (">", 3), (">=", 3), ("==", 4), ("!=", 4), ("&", 5), ("^", 6), ("|", 7)].lookup o
  | _ => none

def loosest : Nat := 8

def assigning? (token : Token) : Option String :=
  match token with
  | .operator o =>
    [("=", ""), ("+=", "+"), ("-=", "-"), ("*=", "*"), ("/=", "/"), ("%=", "%"), ("&=", "&"),
     ("^=", "^"), ("|=", "|"), ("<<=", "<<"), (">>=", ">>")].lookup o
  | _ => none

def ofBool (b : Bool) : Int64 := if b then 1 else 0

structure Scope where
  value? : Octets → Option Octets
  isReadOnly : Octets → Bool
  assigned : List (Octets × Octets) := []

inductive Fault where
  | expression (what : String)
  | number (text : Octets)
  | readOnly (name : Octets)

structure Position where
  rest : Octets
  token : Token := .finish
  scope : Scope

abbrev Evaluating := StateT Position (Except Fault)

def next : Evaluating Token := do
  let p ← get
  let (token, rest) := nextToken p.rest
  set { p with rest }
  return token

def setToken (token : Token) : Evaluating Unit := modify ({ · with token })

def valueOf (name : Octets) : Evaluating Int64 := do
  let scope := (← get).scope
  let text := ((scope.assigned.lookup name).or (scope.value? name)).getD []
  match readNumber? text with
  | some n => return n
  | none => throw (.number text)

def assign (name : Octets) (n : Int64) : Evaluating Int64 := do
  if (← get).scope.isReadOnly name then throw (.readOnly name)
  modify fun p =>
    { p with scope.assigned := (name, Host.Octets.ofInt n.toInt) :: p.scope.assigned }
  return n

def combine (operator : String) (a b : Int64) : Evaluating Int64 :=
  match operator with
  | "|" => return a ||| b
  | "^" => return a ^^^ b
  | "&" => return a &&& b
  | "==" => return ofBool (a = b)
  | "!=" => return ofBool (a ≠ b)
  | "<" => return ofBool (a < b)
  | "<=" => return ofBool (a ≤ b)
  | ">" => return ofBool (b < a)
  | ">=" => return ofBool (b ≤ a)
  | "<<" => return a <<< b
  | ">>" => return a >>> b
  | "+" => return a + b
  | "-" => return a - b
  | "*" => return a * b
  | "/" => if b = 0 then throw (.expression "division by zero") else return a / b
  | "%" => if b = 0 then throw (.expression "division by zero") else return a % b
  | _ => return b

def expected {α : Type} (what : String) : Evaluating α :=
  throw (.expression ("expecting " ++ what))

mutual

def assignment : Nat → Token → Bool → Evaluating Int64
  | 0, _, _ => expected "primary"
  | fuel + 1, token, idle => do
    let after ← next
    match token, assigning? after with
    | .name name, some operator =>
      let n ← assignment fuel (← next) idle
      if idle then return n
      else if operator.isEmpty then assign name n
      else assign name (← combine operator (← valueOf name) n)
    | _, _ => choice fuel token after idle

def choice : Nat → Token → Token → Bool → Evaluating Int64
  | 0, _, _, _ => expected "primary"
  | fuel + 1, token, after, idle => do
    let a ← disjunction fuel token after idle
    if (← get).token = .operator "?" then
      let b ← assignment fuel (← next) (idle || a = 0)
      if (← get).token ≠ .operator ":" then expected "':'"
      let token ← next
      let c ← choice fuel token (← next) (idle || a ≠ 0)
      return if a ≠ 0 then b else c
    else return a

def disjunction : Nat → Token → Token → Bool → Evaluating Int64
  | 0, _, _, _ => expected "primary"
  | fuel + 1, token, after, idle => do
    let a ← conjunction fuel token after idle
    if (← get).token = .operator "||" then
      let token ← next
      let b ← disjunction fuel token (← next) (idle || a ≠ 0)
      return ofBool (a ≠ 0 || b ≠ 0)
    else return a

def conjunction : Nat → Token → Token → Bool → Evaluating Int64
  | 0, _, _, _ => expected "primary"
  | fuel + 1, token, after, idle => do
    let a ← primary fuel token after idle
    let operator := (← get).token
    let a ← if (precedence? operator).isSome then operands fuel a operator loosest idle else pure a
    if (← get).token = .operator "&&" then
      let token ← next
      let b ← conjunction fuel token (← next) (idle || a = 0)
      return ofBool (a ≠ 0 && b ≠ 0)
    else return a

/-- Further operands, as long as their operators bind more closely than a limit. -/
def operands : Nat → Int64 → Token → Nat → Bool → Evaluating Int64
  | 0, _, _, _, _ => expected "primary"
  | fuel + 1, a, operator, limit, idle => do
    let own := (precedence? operator).getD loosest
    let token ← next
    let b ← primary fuel token (← next) idle
    let following := (← get).token
    let b ← match precedence? following with
      | some other => if other < own then operands fuel b following own idle else pure b
      | none => pure b
    let name := match operator with
      | .operator name => name
      | _ => ""
    let a ← if idle then pure b else combine name a b
    let following := (← get).token
    match precedence? following with
    | some other => if limit ≤ other then return a else operands fuel a following limit idle
    | none => return a

def primary : Nat → Token → Token → Bool → Evaluating Int64
  | 0, _, _, _ => expected "primary"
  | fuel + 1, token, after, idle =>
    match token with
    | .operator "(" => do
      let n ← assignment fuel after idle
      if (← get).token ≠ .operator ")" then expected "')'"
      setToken (← next)
      return n
    | .number n => do
      setToken after
      return n
    | .name name => do
      setToken after
      if idle then return 0 else valueOf name
    | .operator "+" => do primary fuel after (← next) idle
    | .operator "-" => do return -(← primary fuel after (← next) idle)
    | .operator "!" => do return ofBool ((← primary fuel after (← next) idle) = 0)
    | .operator "~" => do return ~~~(← primary fuel after (← next) idle)
    | _ => expected "primary"

end

def whole (fuel : Nat) : Evaluating Int64 := do
  let n ← assignment fuel (← next) false
  if (← get).token ≠ .finish then expected "EOF"
  return n

/-- The value of an expression and the assignments that it makes, in their order. An expression is
evaluated while it is read, so what is evaluated first also fails first; an operand whose value does
not matter is read all the same. -/
def run (scope : Scope) (text : Octets) : Except Octets (Octets × List (Octets × Octets)) :=
  match (whole (20 * text.length + 40)).run { rest := text, scope } with
  | .ok (n, p) => .ok (Host.Octets.ofInt n.toInt, p.scope.assigned.reverse)
  | .error (.expression what) =>
    .error ("arithmetic expression: ".toList ++ what.toList ++ ": \"".toList ++ text ++ ['"'])
  | .error (.number word) => .error ("Illegal number: ".toList ++ word)
  | .error (.readOnly name) => .error (name ++ ": is read only".toList)

end Arithmetic

end LoginSession.Shell

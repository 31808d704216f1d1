namespace LoginSession.Cookie

def hexDigits : List Char :=
  ['0', '1', '2', '3', '4', '5', '6', '7', '8', '9', 'a', 'b', 'c', 'd', 'e', 'f']

def isHexDigit (c : Char) : Bool := hexDigits.contains c

/-- The thirteenth digit names the version, the seventeenth the variant. -/
def isWellFormed (cookie : String) : Bool :=
  let cs := cookie.toList
  cs.length = 32 && cs.all isHexDigit && cs[12]? = some '4' &&
    (cs[16]?.map fun c => c = '8' || c = '9' || c = 'a' || c = 'b').getD false

def digits : Nat → Nat → List Char
  | 0, _ => []
  | count + 1, n => digits count (n / 16) ++ [hexDigits[n % 16]?.getD '0']

def ofNumber (n : Nat) : String :=
  String.ofList (digits 12 (n / Nat.pow 16 18) ++ '4' :: digits 3 (n / Nat.pow 16 15) ++
    '8' :: digits 15 n)

end LoginSession.Cookie

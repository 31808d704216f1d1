import LoginSession.Text.Blank

namespace LoginSession

inductive Kind where
  | text
  | boolean
  | int32
  deriving DecidableEq, Repr

inductive Value where
  | text (s : String)
  | boolean (b : Bool)
  | int32 (n : Int32)
  deriving DecidableEq, Repr

def Value.kind : Value → Kind
  | .text _ => .text
  | .boolean _ => .boolean
  | .int32 _ => .int32

def Value.render : Value → String
  | .text s => s
  | .boolean b => if b then "true" else "false"
  | .int32 n => toString n.toInt

namespace Text

def isDigit (c : Char) : Bool := '0' ≤ c && c ≤ '9'

/-- One more than the largest 32-bit integer: the least bound at which both ends of the range can
still be told from what lies beyond. -/
def magnitudeLimit : Int64 := 2147483648

def digitValue (c : Char) : Nat := c.toNat - '0'.toNat

def addDigit (magnitude : Int64) (c : Char) : Int64 :=
  min (magnitude * 10 + Int64.ofNat (digitValue c)) magnitudeLimit

def readMagnitude (cs : List Char) : Int64 := (cs.takeWhile isDigit).foldl addDigit 0

def clampInt32 (n : Int64) : Int32 := (max (-2147483648) (min 2147483647 n)).toInt32

def splitSign : List Char → Bool × List Char
  | '-' :: rest => (true, rest)
  | '+' :: rest => (false, rest)
  | rest => (false, rest)

/-- The integer that a text starts with, 0 if it starts with none. Blanks and one sign may precede
the digits; values out of range become the nearest one in range. -/
def readInt32 (cs : List Char) : Int32 :=
  let (negative, digits) := splitSign (trimStart cs)
  let magnitude := readMagnitude digits
  clampInt32 (if negative then -magnitude else magnitude)

end Text

/-- A truth value is true for the exact text `true` alone. -/
def Kind.read (kind : Kind) (raw : String) : Value :=
  match kind with
  | .text => .text raw
  | .boolean => .boolean (raw = "true")
  | .int32 => .int32 (Text.readInt32 raw.toList)

theorem Kind.kind_read (kind : Kind) (raw : String) : (kind.read raw).kind = kind := by
  cases kind <;> rfl

end LoginSession

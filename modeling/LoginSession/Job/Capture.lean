import LoginSession.Text.Utf8

namespace LoginSession

/-- How a read ended: it has taken so many bytes, or it failed. Only at the end of the stream does
it take none. -/
inductive ReadResult where
  | bytes (count : Nat)
  | fault
  deriving DecidableEq, Repr

def ReadResult.isLast : ReadResult → Bool
  | .bytes count => count = 0
  | .fault => true

/-- `line` holds the bytes of a line that has not ended, last byte first. `taken` counts those of
the read in progress; a read that was given up before it leaves its bytes in the line. -/
structure Capture where
  isOpen : Bool := true
  taken : Nat := 0
  line : List UInt8 := []
  text : String := ""
  deriving DecidableEq, Repr

namespace Capture

def decode (bytes : List UInt8) : String := String.ofList (Text.decodeLossy bytes)

/-- What there is of a line joins the text however the read ended; the last read closes the stream.
-/
def endRead (c : Capture) (r : ReadResult) : Capture :=
  { isOpen := c.isOpen && !r.isLast
    taken := 0
    line := []
    text := c.text ++ decode c.line.reverse }

def push (c : Capture) (b : UInt8) : Capture :=
  let c := { c with taken := c.taken + 1, line := b :: c.line }
  if b = 10 then c.endRead (.bytes c.taken) else c

def feed (c : Capture) (bytes : List UInt8) : Capture := bytes.foldl push c

def giveUp (c : Capture) : Capture := { c with taken := 0 }

@[simp] theorem isOpen_push (c : Capture) (b : UInt8) : (c.push b).isOpen = c.isOpen := by
  unfold push
  dsimp only
  split <;> simp [endRead, ReadResult.isLast]

@[simp] theorem isOpen_feed (c : Capture) (bytes : List UInt8) :
    (c.feed bytes).isOpen = c.isOpen := by
  induction bytes generalizing c with
  | nil => rfl
  | cons b bytes ih => exact (ih (c.push b)).trans (isOpen_push c b)

end Capture

end LoginSession

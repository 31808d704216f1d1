import LoginSession.Host.Octets

namespace LoginSession.Host

inductive Handle where
  | null
  | zero
  | full
  | directory
  | opened (entry : Nat)
  | reader (pipe : Nat)
  | writer (pipe : Nat)
  deriving DecidableEq, Repr

abbrev Descriptors := List (Nat × Handle)

abbrev Environment := List (Octets × Octets)

namespace Descriptors

def get? (d : Descriptors) (n : Nat) : Option Handle := d.lookup n

def close (d : Descriptors) (n : Nat) : Descriptors := d.filter (·.1 ≠ n)

def put (d : Descriptors) (n : Nat) (h : Handle) : Descriptors := (n, h) :: d.close n

def change (d : Descriptors) (n : Nat) : Option Handle → Descriptors
  | none => d.close n
  | some h => d.put n h

/-- Descriptors from this number on are a shell's own. -/
def own : Nat := 10

def forProgram (d : Descriptors) : Descriptors := d.filter (·.1 < own)

def addOwn (d : Descriptors) (h : Handle) : Descriptors × Nat :=
  let number := (d.map (·.1 + 1)).foldl max own
  (d.put number h, number)

def keep (d : Descriptors) (n : Nat) : Descriptors × Option Nat :=
  match d.get? n with
  | none => (d, none)
  | some h =>
    let (d, number) := d.addOwn h
    (d, some number)

def restore (d : Descriptors) (n : Nat) : Option Nat → Descriptors
  | none => d.close n
  | some number => (d.change n (d.get? number)).close number

end Descriptors

end LoginSession.Host

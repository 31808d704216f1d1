import LoginSession.Host.Descriptors
import LoginSession.Shell.Source

namespace LoginSession.Shell

open Host (Octets Environment)

/-- A variable that is `lasting` stays known when its value is taken away. -/
structure Variable where
  value : Option Octets := none
  exported : Bool := false
  readOnly : Bool := false
  lasting : Bool := false
  deriving DecidableEq, Repr

abbrev Variables := List (Octets × Variable)

namespace Variables

def get? (v : Variables) (name : Octets) : Option Octets := (v.lookup name).bind (·.value)

def erase (v : Variables) (name : Octets) : Variables := v.filter (·.1 ≠ name)

def put : Variables → Octets → Variable → Variables
  | [], name, x => [(name, x)]
  | (other, y) :: rest, name, x =>
    if other = name then (name, x) :: rest else (other, y) :: put rest name x

def current (v : Variables) (name : Octets) : Variable := (v.lookup name).getD {}

def isReadOnly (v : Variables) (name : Octets) : Bool := (v.current name).readOnly

def assign (v : Variables) (name value : Octets) : Variables :=
  v.put name { v.current name with value := some value }

def unset (v : Variables) (name : Octets) : Variables :=
  match v.lookup name with
  | some x => if x.lasting then v.put name { x with value := none } else v.erase name
  | none => v

def restore (v : Variables) (name : Octets) : Option Variable → Variables
  | none => v.erase name
  | some old => v.put name old

def insertBy {α : Type} (before : α → α → Bool) (a : α) : List α → List α
  | [] => [a]
  | b :: rest => if before a b then a :: b :: rest else b :: insertBy before a rest

def sortBy {α : Type} (before : α → α → Bool) (xs : List α) : List α :=
  xs.foldl (fun sorted x => insertBy before x sorted) []

/-- Names are kept in so many groups, in which they are found again. -/
def group (groups : Nat) (name : Octets) : Nat :=
  (16 * (name.headD '\x00').toNat + name.foldl (fun n c => n + c.toNat) 0) % 32768 % groups

def grouped {α : Type} (groups : Nat) (xs : List (Octets × α)) : List (Octets × α) :=
  sortBy (fun a b => group groups a.1 < group groups b.1) xs

def environment (v : Variables) : Environment :=
  (grouped 39 v).filterMap fun (name, x) =>
    if x.exported then x.value.map fun value => (name, value) else none

end Variables

/-- In single quotes, with the quotes in between put into double ones. -/
def quoted (text : Octets) : Octets := '\'' :: inside text
where
  inside : Octets → Octets
    | [] => ['\'']
    | '\'' :: rest => ['\'', '"', '\''] ++ between rest
    | c :: rest => c :: inside rest
  between : Octets → Octets
    | [] => ['"']
    | '\'' :: rest => '\'' :: between rest
    | c :: rest => ['"', '\'', c] ++ inside rest

end LoginSession.Shell

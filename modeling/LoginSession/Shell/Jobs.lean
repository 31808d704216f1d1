import LoginSession.Host.Octets
import LoginSession.Process.Exit

namespace LoginSession.Shell

open Host (Octets)

structure Job where
  processes : List (Nat × Option Exit)
  waited : Bool := false
  deriving DecidableEq, Repr

namespace Job

def isDone (j : Job) : Bool := j.processes.all (·.2.isSome)

/-- The last process speaks for the job. -/
def last? (j : Job) : Option (Nat × Option Exit) := j.processes.getLast?

def status (j : Job) : Nat := ((j.last?.bind (·.2)).map (·.code.toNat)).getD 0

def note (j : Job) (process : Nat) (how : Exit) : Job :=
  { j with processes := j.processes.map fun (n, e) => (n, if n = process then some how else e) }

def isStale (j : Job) : Bool := j.waited && j.isDone

end Job

/-- The table has empty places. `order` lists those that are taken, the current job's first. -/
structure Jobs where
  places : List (Option Job) := []
  order : List Nat := []
  deriving DecidableEq, Repr

namespace Jobs

def get? (j : Jobs) (place : Nat) : Option Job := (j.places[place]?).join

def set (j : Jobs) (place : Nat) (job : Option Job) : Jobs :=
  { j with places := j.places.set place job }

def remove (j : Jobs) (place : Nat) : Jobs :=
  { j.set place none with order := j.order.filter (· ≠ place) }

def listed (j : Jobs) : List (Nat × Job) :=
  j.order.filterMap fun place => (j.get? place).map fun job => (place, job)

/-- The place for a new job: the first one that is empty or stale. What was there is forgotten. -/
def claim (j : Jobs) : Jobs × Nat :=
  let isFree (job : Option Job) : Bool := job.all (·.isStale)
  match j.places.findIdx? isFree with
  | some place => (j.remove place, place)
  | none => ({ j with places := j.places ++ [none] }, j.places.length)

def add (j : Jobs) (job : Job) : Jobs :=
  let (j, place) := j.claim
  { j.set place (some job) with order := place :: j.order }

def modify (j : Jobs) (place : Nat) (f : Job → Job) : Jobs :=
  match j.get? place with
  | some job => j.set place (some (f job))
  | none => j

def note (j : Jobs) (process : Nat) (how : Exit) : Jobs :=
  { j with places := j.places.map fun job => job.map (·.note process how) }

def placeOf? (j : Jobs) (process : Nat) : Option Nat :=
  (j.listed.find? fun (_, job) => job.last?.map (·.1) = some process).map (·.1)

inductive Wanted where
  | current
  | previous
  | number (n : Nat)
  | only
  | nothing
  deriving DecidableEq

def wanted (name? : Option Octets) : Wanted :=
  match name? with
  | none | some ['%'] | some ['%', '%'] | some ['%', '+'] => .current
  | some ['%', '-'] => .previous
  | some ['%', '?'] => .only
  | some ('%' :: digits) =>
    if digits.all Char.isDigit then .number ((String.ofList digits).toNat?.getD 0) else .nothing
  | some _ => .nothing

def find (j : Jobs) (name? : Option Octets) : Except Octets (Nat × Job) :=
  let found (job? : Option (Nat × Job)) (fault : Octets) : Except Octets (Nat × Job) :=
    match job? with
    | some job => .ok job
    | none => .error fault
  let unknown : Octets := "No such job: ".toList ++ name?.getD []
  match wanted name? with
  | .current => found j.listed.head? "No current job".toList
  | .previous => found j.listed[1]? "No previous job".toList
  | .number n =>
    found (if n = 0 then none else (j.get? (n - 1)).map fun job => (n - 1, job)) unknown
  | .only =>
    match j.listed with
    | [] => .error unknown
    | [job] => .ok job
    | _ => .error (name?.getD [] ++ ": ambiguous".toList)
  | .nothing => .error unknown

def waitFor (j : Jobs) (place : Nat) : Jobs := j.modify place ({ · with waited := true })

end Jobs

end LoginSession.Shell

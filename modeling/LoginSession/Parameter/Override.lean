import LoginSession.Parameter.Report

namespace LoginSession

def protectedKeys : List String := ["id", "cookie"]

/-- Parameters that a caller supplies and that win over discovered ones. Two keys identify the
session and can never be overridden. -/
structure Overrides where
  entries : List Parameter := []
  deriving DecidableEq, Repr

namespace Overrides

/-- The value goes to the first entry with the key, or to a new entry at the end. -/
def assign (p : Parameter) : List Parameter → List Parameter
  | [] => [p]
  | q :: rest => if q.key = p.key then ⟨q.key, p.value⟩ :: rest else q :: assign p rest

def insert (o : Overrides) (p : Parameter) : Overrides :=
  if p.key ∈ protectedKeys then o else ⟨assign p o.entries⟩

def ofList (ps : List Parameter) : Overrides := ps.foldl insert {}

def contains (o : Overrides) (key : String) : Bool := o.entries.any (·.key = key)

def get? (o : Overrides) (key : String) : Option Value :=
  (o.entries.find? (·.key = key)).map (·.value)

def size (o : Overrides) : Nat := o.entries.length

def isEmpty (o : Overrides) : Bool := o.entries.isEmpty

/-- Overridden keys are left out of what was discovered; all overrides follow, in their order. -/
def mergeInto (o : Overrides) (report : String) : ParameterSet :=
  (ParameterSet.ofReport o.contains report).append o.entries

theorem contains_iff_get? (o : Overrides) (key : String) :
    o.contains key = true ↔ (o.get? key).isSome := by
  simp [contains, get?, List.find?_isSome]

end Overrides

end LoginSession

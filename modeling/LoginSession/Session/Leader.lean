import LoginSession.Config
import LoginSession.Parameter.Override
import LoginSession.Process.Exit

namespace LoginSession

structure Identity where
  sessionId : Option String := none
  cookie : Option String := none
  serviceName : Option String := none
  uid : UInt32 := 0
  pid : UInt32 := 0
  deriving DecidableEq, Repr

/-- `pending` lists the jobs of the collections in flight. Whoever takes a collection off that list
decides what becomes of it: its completion reports a result, a cancellation drops it unreported. -/
structure Leader where
  config : Config := .default
  identity : Identity := {}
  overrides : Overrides := {}
  pending : List Nat := []
  cancelled : Bool := false
  deriving DecidableEq, Repr

namespace Leader

def setOverrides (l : Leader) (parameters : List Parameter) : Leader :=
  { l with overrides := .ofList parameters }

def command (l : Leader) : String := l.config.helperCommand l.identity.uid l.identity.pid

def track (l : Leader) (job : Nat) : Leader := { l with pending := l.pending ++ [job] }

def merge (l : Leader) (report : String) : ParameterSet := l.overrides.mergeInto report

def result (l : Leader) (how : Option Exit) (report : String) : Option ParameterSet :=
  match how with
  | some how => if how.isSuccess then some (l.merge report) else none
  | none => none

def remove? (l : Leader) (job : Nat) : Option Leader :=
  if job ∈ l.pending then some { l with pending := l.pending.erase job } else none

def cancel (l : Leader) : Leader × List Nat :=
  ({ l with pending := [], cancelled := true }, l.pending)

theorem remove?_eq_none_iff (l : Leader) (job : Nat) : l.remove? job = none ↔ job ∉ l.pending := by
  simp [remove?]

theorem eq_of_remove? {l next : Leader} {job : Nat} (h : l.remove? job = some next) :
    job ∈ l.pending ∧ next = { l with pending := l.pending.erase job } := by
  simp only [remove?, Option.ite_none_right_eq_some, Option.some.injEq] at h
  exact ⟨h.1, h.2.symm⟩

end Leader

end LoginSession

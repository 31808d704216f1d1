import LoginSession.Job.Basic
import LoginSession.Session.Leader

namespace LoginSession

structure Report where
  parameters : Option ParameterSet
  identity : Identity
  cancelled : Bool
  deriving DecidableEq, Repr

/-- The callback of a collection is called once or dropped uncalled. -/
inductive Ending where
  | waiting
  | called (report : Report)
  | dropped
  deriving DecidableEq, Repr

/-- `claimed` says that the completion has taken the collection off its leader's list. -/
structure Collection (α : Type) where
  leader : Nat
  job : Nat
  context : α
  claimed : Bool := false
  ending : Ending := .waiting

/-- A leader's collections on their way to their end: the jobs that were in flight, those of them
that are still to be terminated and the one that is waited for. -/
structure Cancellation where
  leader : Nat
  drained : List Nat
  left : List Nat
  awaited : Option Nat := none
  deriving DecidableEq, Repr

def Cancellation.isOver (c : Cancellation) : Bool := c.left.isEmpty && c.awaited.isNone

/-- Jobs are known by their ids, which count from 1; all else is known by its place. Each operation
is one uninterrupted stretch of a task; between two of them anything else may happen. -/
structure Sessions (α : Type) where
  jobs : List Job := []
  leaders : List Leader := []
  collections : List (Collection α) := []
  cancellations : List Cancellation := []

namespace Sessions

variable {α : Type}

def job? (s : Sessions α) (id : Nat) : Option Job := s.jobs.find? (·.id = id)

def setJob (s : Sessions α) (job : Job) : Sessions α :=
  { s with jobs := s.jobs.map fun j => if j.id = job.id then job else j }

def newJob (s : Sessions α) (command : Option String) : Sessions α × Job :=
  let job : Job := { id := s.jobs.length + 1, command }
  ({ s with jobs := s.jobs ++ [job] }, job)

def isJobFinished (s : Sessions α) (id : Nat) : Bool := ((s.job? id).map Job.isFinished).getD true

def leader (s : Sessions α) (n : Nat) : Leader := s.leaders[n]?.getD {}

def setLeader (s : Sessions α) (n : Nat) (leader : Leader) : Sessions α :=
  { s with leaders := s.leaders.set n leader }

def newLeader (s : Sessions α) (leader : Leader) : Sessions α × Nat :=
  ({ s with leaders := s.leaders ++ [leader] }, s.leaders.length)

def addCollection (s : Sessions α) (c : Collection α) : Sessions α :=
  { s with collections := s.collections ++ [c] }

def setCollection (s : Sessions α) (n : Nat) (c : Collection α) : Sessions α :=
  { s with collections := s.collections.set n c }

def ending (s : Sessions α) (collection : Nat) : Ending :=
  ((s.collections[collection]?).map (·.ending)).getD .dropped

def setCancellation (s : Sessions α) (k : Nat) (c : Cancellation) : Sessions α :=
  { s with cancellations := s.cancellations.set k c }

/-- Starts a collection for a leader: the world after the start, or none if its helper could not be
started. The callback is then dropped. -/
def collect {σ : Type} (spawn : List String → Except SystemFault (σ × Child)) (s : Sessions α)
    (leader : Nat) (context : α) : Sessions α × Option σ :=
  let (s, job) := s.newJob (some (s.leader leader).command)
  match job.start spawn with
  | .error _ => (s.addCollection { leader, job := job.id, context, ending := .dropped }, none)
  | .ok (world, job) =>
    let s := (s.setJob job).setLeader leader ((s.leader leader).track job.id)
    (s.addCollection { leader, job := job.id, context }, some world)

def waiting? (s : Sessions α) (n : Nat) : Option (Collection α) :=
  s.collections[n]?.filter fun c => c.ending = .waiting && !c.claimed && s.isJobFinished c.job

def complete (s : Sessions α) (n : Nat) (c : Collection α) : Sessions α × Bool :=
  match (s.leader c.leader).remove? c.job with
  | none => (s.setCollection n { c with ending := .dropped }, false)
  | some leader => ((s.setLeader c.leader leader).setCollection n { c with claimed := true }, true)

def due? (s : Sessions α) (n : Nat) : Option (Collection α) :=
  s.collections[n]?.filter fun c => c.ending = .waiting && c.claimed

def report (s : Sessions α) (c : Collection α) : Report :=
  let leader := s.leader c.leader
  let job := s.job? c.job
  let how := (job.bind (·.running)).bind (·.watch.completion?)
  ⟨leader.result how ((job.map (·.text .output)).getD ""), leader.identity, leader.cancelled⟩

def call (s : Sessions α) (n : Nat) (c : Collection α) : Sessions α :=
  s.setCollection n { c with ending := .called (s.report c) }

def cancel (s : Sessions α) (leader : Nat) : Sessions α :=
  let (cancelled, drained) := (s.leader leader).cancel
  { s.setLeader leader cancelled with
    cancellations := s.cancellations ++ [{ leader, drained, left := drained }] }

def next? (s : Sessions α) (k id : Nat) : Option (Cancellation × Job) :=
  match s.cancellations[k]?, s.job? id with
  | some c, some job => if c.awaited = none ∧ id ∈ c.left then some (c, job) else none
  | _, _ => none

def terminate (s : Sessions α) (k : Nat) (c : Cancellation) (job : Job) : Sessions α :=
  let (next, running) := job.requestCancel
  (s.setJob next).setCancellation k
    { c with left := c.left.erase job.id, awaited := if running then some job.id else none }

def ended? (s : Sessions α) (k : Nat) : Option Cancellation :=
  s.cancellations[k]?.filter fun c => (c.awaited.map s.isJobFinished).getD false

def proceed (s : Sessions α) (k : Nat) (c : Cancellation) : Sessions α :=
  s.setCancellation k { c with awaited := none }

theorem id_of_job? {s : Sessions α} {id : Nat} {job : Job} (h : s.job? id = some job) :
    job.id = id := by
  simpa using List.find?_some h

theorem job?_newJob (s : Sessions α) (command : Option String) (id : Nat) :
    (s.newJob command).1.job? id =
      (s.job? id).or (if s.jobs.length + 1 = id then some { id := s.jobs.length + 1, command }
        else none) := by
  rw [job?, newJob, List.find?_append]
  congr 1
  by_cases h : s.jobs.length + 1 = id <;> simp [h]

theorem job?_setJob (s : Sessions α) (job : Job) (id : Nat) :
    (s.setJob job).job? id = (s.job? id).map fun j => if j.id = job.id then job else j := by
  have same : (fun j : Job => decide (j.id = id)) ∘ (fun j => if j.id = job.id then job else j) =
      fun j => decide (j.id = id) := by
    funext j
    by_cases h : j.id = job.id <;> simp [h]
  simp only [job?, setJob, List.find?_map, same]

theorem job?_setJob_self {s : Sessions α} {job old : Job} (h : s.job? job.id = some old) :
    (s.setJob job).job? job.id = some job := by
  rw [job?_setJob, h, Option.map_some, id_of_job? h, if_pos rfl]

theorem job?_setJob_of_ne (s : Sessions α) {job : Job} {id : Nat} (h : id ≠ job.id) :
    (s.setJob job).job? id = s.job? id := by
  rw [job?_setJob]
  cases found : s.job? id with
  | none => rfl
  | some j => rw [Option.map_some, id_of_job? found, if_neg h]

theorem leader_of_le (s : Sessions α) {n : Nat} (unknown : s.leaders.length ≤ n) :
    s.leader n = {} := by
  rw [leader, List.getElem?_eq_none unknown, Option.getD_none]

theorem leader_setLeader {s : Sessions α} {n : Nat} (known : n < s.leaders.length) (l : Leader)
    (m : Nat) : (s.setLeader n l).leader m = if m = n then l else s.leader m := by
  unfold leader setLeader
  by_cases same : m = n
  · rw [if_pos same, same, List.getElem?_set_self known, Option.getD_some]
  · rw [if_neg same, List.getElem?_set_ne (Ne.symm same)]

theorem leader_newLeader (s : Sessions α) (l : Leader) (m : Nat) :
    (s.newLeader l).1.leader m = if m = s.leaders.length then l else s.leader m := by
  unfold leader newLeader
  by_cases same : m = s.leaders.length
  · rw [if_pos same, same, List.getElem?_concat_length, Option.getD_some]
  · rw [if_neg same]
    by_cases known : m < s.leaders.length
    · rw [List.getElem?_append_left known]
    · have unknown : s.leaders.length ≤ m := Nat.le_of_not_lt known
      have beyond : (s.leaders ++ [l]).length ≤ m := by
        rw [List.length_append, List.length_singleton]
        omega
      rw [List.getElem?_eq_none beyond, List.getElem?_eq_none unknown]

theorem lt_of_mem_pending {s : Sessions α} {n id : Nat} (h : id ∈ (s.leader n).pending) :
    n < s.leaders.length := by
  refine Nat.lt_of_not_le fun unknown => ?_
  rw [leader_of_le s unknown] at h
  cases h

end Sessions

end LoginSession

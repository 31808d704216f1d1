import LoginSession.Session.Manager

namespace LoginSession

structure Renaming where
  session : String → String
  cookie : String → String

def Identity.renamed (ρ : Renaming) (i : Identity) : Identity :=
  { i with sessionId := i.sessionId.map ρ.session, cookie := i.cookie.map ρ.cookie }

def jobNumber (own : List Nat) (id : Nat) : Nat := own.idxOf id + 1

def Job.renumbered (own : List Nat) (j : Job) : Job := { j with id := jobNumber own j.id }

def Leader.renamed (ρ : Renaming) (own : List Nat) (l : Leader) : Leader :=
  { l with identity := l.identity.renamed ρ, pending := l.pending.map (jobNumber own) }

def Report.renamed (ρ : Renaming) (r : Report) : Report :=
  { r with identity := r.identity.renamed ρ }

def Ending.renamed (ρ : Renaming) : Ending → Ending
  | .waiting => .waiting
  | .called report => .called (report.renamed ρ)
  | .dropped => .dropped

def Collection.renamed {α : Type} (ρ : Renaming) (own : List Nat) (c : Collection α) :
    Collection α :=
  { c with leader := 0, job := jobNumber own c.job, ending := c.ending.renamed ρ }

def Cancellation.renumbered (own : List Nat) (c : Cancellation) : Cancellation where
  leader := 0
  drained := c.drained.map (jobNumber own)
  left := c.left.map (jobNumber own)
  awaited := c.awaited.map (jobNumber own)

def placeOf (owners : List Nat) (n k : Nat) : Nat := (owners.take k).count n

def placeOf? (owners : List Nat) (n k : Nat) : Option Nat :=
  if owners[k]? = some n then some (placeOf owners n k) else none

/-- What can be observed of a session: its leader, how many collections are in flight, and for each
collection its context and what has come of its callback. -/
structure Observation (α : Type) where
  identity : Identity
  overrides : Overrides
  pending : Nat
  cancelled : Bool
  callbacks : List (α × Ending)

def Observation.renamed {α : Type} (ρ : Renaming) (v : Observation α) : Observation α :=
  { v with
    identity := v.identity.renamed ρ
    callbacks := v.callbacks.map fun (context, ending) => (context, ending.renamed ρ) }

namespace Sessions

variable {α : Type}

def collectionsOf (s : Sessions α) (n : Nat) : List (Collection α) :=
  s.collections.filter (·.leader = n)

def cancellationsOf (s : Sessions α) (n : Nat) : List Cancellation :=
  s.cancellations.filter (·.leader = n)

def jobsOf (s : Sessions α) (n : Nat) : List Nat := (s.collectionsOf n).map (·.job)

def view (s : Sessions α) (n : Nat) : Observation α :=
  let leader := s.leader n
  { identity := leader.identity
    overrides := leader.overrides
    pending := leader.pending.length
    cancelled := leader.cancelled
    callbacks := (s.collectionsOf n).map fun c => (c.context, c.ending) }

/-- The sessions as they would be if there were only one leader. -/
def only (ρ : Renaming) (s : Sessions α) (n : Nat) : Sessions α :=
  let own := s.jobsOf n
  { jobs := (own.filterMap s.job?).map (·.renumbered own)
    leaders := [(s.leader n).renamed ρ own]
    collections := (s.collectionsOf n).map (·.renamed ρ own)
    cancellations := (s.cancellationsOf n).map (·.renumbered own) }

/-- An event as it is for a leader alone, or none if the event is no concern of that leader: it is
neither an operation of the leader nor about a job, a collection or a cancellation of it. -/
def ownEvent (ρ : Renaming) (s : Sessions α) (n : Nat) : Event α → Option (Event α)
  | .create _ | .newJob _ => none
  | .identify m identity => if m = n then some (.identify 0 (identity.renamed ρ)) else none
  | .override m parameters => if m = n then some (.override 0 parameters) else none
  | .collect m context spawn => if m = n then some (.collect 0 context spawn) else none
  | .flag m => if m = n then some (.flag 0) else none
  | .cancel m => if m = n then some (.cancel 0) else none
  | .watch id e =>
    if id ∈ s.jobsOf n then some (.watch (jobNumber (s.jobsOf n) id) e) else none
  | .complete k => (placeOf? (s.collections.map (·.leader)) n k).map .complete
  | .call k => (placeOf? (s.collections.map (·.leader)) n k).map .call
  | .terminate k id =>
    (placeOf? (s.cancellations.map (·.leader)) n k).map (.terminate · (jobNumber (s.jobsOf n) id))
  | .proceed k => (placeOf? (s.cancellations.map (·.leader)) n k).map .proceed

/-- Nothing has happened to a leader, to its collections and cancellations or to their jobs. -/
structure Undisturbed (s next : Sessions α) (n : Nat) : Prop where
  leader : next.leader n = s.leader n
  collections : next.collectionsOf n = s.collectionsOf n
  cancellations : next.cancellationsOf n = s.cancellationsOf n
  jobs : ∀ id ∈ s.jobsOf n, next.job? id = s.job? id

end Sessions

def Closing.Stage.renumbered (owners : List Nat) (n : Nat) : Stage → Stage
  | .removed => .removed
  | .flagged => .flagged
  | .cancelling j => .cancelling (placeOf owners n j)
  | .returned => .returned

def Closing.renamed (ρ : Renaming) (owners : List Nat) (n : Nat) (c : Closing) : Closing where
  cookie := ρ.cookie c.cookie
  leader := 0
  stage := c.stage.renumbered owners n

namespace Manager

variable {α : Type}

def view (m : Manager α) (n : Nat) : Option (Observation α) := (m.places[n]?).map m.sessions.view

def only (ρ : Renaming) (m : Manager α) (n : Nat) : Manager α :=
  match m.places[n]? with
  | none => { registry := { config := m.registry.config } }
  | some place =>
    { sessions := m.sessions.only ρ place
      registry := {
        config := m.registry.config
        entries := (m.registry.entries.filter (·.2 = n)).map fun (cookie, _) => (ρ.cookie cookie, 0)
        opened := 1 }
      places := [0]
      closings := (m.closings.filter (·.leader = n)).map
        (·.renamed ρ (m.sessions.cancellations.map (·.leader)) place) }

/-- An event as it is for a session alone, or none if the event is no concern of that session.
Sessions are numbered as they are opened, so the next to be opened is the one that will have the
number. -/
def ownEvent (ρ : Renaming) (m : Manager α) (n : Nat) : Event α → Option (Event α)
  | .elsewhere e =>
    (m.places[n]?).bind fun place => (m.sessions.ownEvent ρ place e).map .elsewhere
  | .openSession cookie request =>
    if m.registry.opened = n ∧ m.registry.find? cookie = none then
      some (.openSession (ρ.cookie cookie) request)
    else none
  | .closeSession cookie =>
    if m.registry.find? cookie = some n then some (.closeSession (ρ.cookie cookie)) else none
  | .resume k => (placeOf? (m.closings.map (·.leader)) n k).map .resume
  | .get _ | .getOrError _ | .count | .cookies => none

/-- An event that closes a session or cancels the collections of its leader. -/
def Ends (m : Manager α) (n : Nat) : Event α → Prop
  | .closeSession cookie => m.registry.find? cookie = some n
  | .resume k => ∃ c, m.closings[k]? = some c ∧ c.leader = n
  | .elsewhere (.flag place) | .elsewhere (.cancel place) => m.places[n]? = some place
  | .elsewhere (.terminate k _) | .elsewhere (.proceed k) =>
    ∃ c, m.sessions.cancellations[k]? = some c ∧ m.places[n]? = some c.leader
  | _ => False

/-- The steps of a run that are a session's own, each with what is then observed of the session. -/
def ownSteps (ρ : Renaming) (n : Nat) (m : Manager α) :
    List (Event α) → List (Event α × Option (Observation α))
  | [] => []
  | e :: events =>
    match m.step e with
    | none => []
    | some (next, _) =>
      ((m.ownEvent ρ n e).toList.map fun e => (e, next.view n)) ++ next.ownSteps ρ n events

def ownEvents (ρ : Renaming) (n : Nat) (m : Manager α) (events : List (Event α)) :
    List (Event α) := (m.ownSteps ρ n events).map (·.1)

def observed (ρ : Renaming) (n : Nat) (m : Manager α) (events : List (Event α)) :
    List (Option (Observation α)) := (m.ownSteps ρ n events).map (·.2)

/-- What is observed of a session after each step of a run. -/
def views (n : Nat) (m : Manager α) : List (Event α) → List (Option (Observation α))
  | [] => []
  | e :: events =>
    match m.step e with
    | none => []
    | some (next, _) => next.view n :: next.views n events

end Manager

end LoginSession

import LoginSession.Proofs.Merge
import LoginSession.Proofs.Provenance
import LoginSession.Proofs.SupervisedAttempt
import LoginSession.Session.Manager
import LoginSession.Supervisor.Collector

namespace LoginSession

/-- The entries that are taken notice of. -/
def Parameter.unprotected (ps : List Parameter) : List Parameter :=
  ps.filter fun p => p.key ∉ protectedKeys

theorem Overrides.ofList_unprotected (ps : List Parameter) :
    ofList (Parameter.unprotected ps) = ofList ps := by
  rw [ofList, Parameter.unprotected, List.foldl_filter, ofList]
  congr 1
  funext o p
  rw [insert]
  by_cases isProtected : p.key ∈ protectedKeys <;> simp [isProtected]

theorem Leader.setOverrides_unprotected (l : Leader) (ps : List Parameter) :
    l.setOverrides (Parameter.unprotected ps) = l.setOverrides ps := by
  rw [setOverrides, Overrides.ofList_unprotected, setOverrides]

def OpenRequest.unprotected (request : OpenRequest) : OpenRequest :=
  { request with parameters := Parameter.unprotected request.parameters }

def Options.unprotected (o : Options) : Options :=
  { o with overrides := Parameter.unprotected o.overrides }

theorem Registry.register_unprotected (r : Registry) (cookie : String) (request : OpenRequest) :
    r.register cookie request.unprotected = r.register cookie request := by
  have leader : r.leaderFor cookie request.unprotected = r.leaderFor cookie request := by
    rw [leaderFor, OpenRequest.unprotected, Overrides.ofList_unprotected, leaderFor]
  rw [register, leader, register]

namespace Sessions

variable {α : Type}

def Event.unprotected : Event α → Event α
  | .override n ps => .override n (Parameter.unprotected ps)
  | e => e

theorem step_unprotected (s : Sessions α) (e : Event α) : s.step e.unprotected = s.step e := by
  cases e with
  | override n ps => simp only [Event.unprotected, step, Leader.setOverrides_unprotected]
  | create | identify | newJob | collect | watch | complete | call | flag | cancel | terminate
  | proceed => rfl

theorem run_unprotected (s : Sessions α) (events : List (Event α)) :
    s.run (events.map Event.unprotected) = s.run events := by
  induction events generalizing s with
  | nil => rfl
  | cons e events ih => simp only [List.map_cons, run, step_unprotected, ih]

theorem Event.leader?_unprotected (e : Event α) : e.unprotected.leader? = e.leader? := by
  cases e <;> rfl

end Sessions

namespace Manager

variable {α : Type}

def Event.unprotected : Event α → Event α
  | .elsewhere e => .elsewhere e.unprotected
  | .openSession cookie request => .openSession cookie request.unprotected
  | e => e

theorem step_unprotected (m : Manager α) (e : Event α) : m.step e.unprotected = m.step e := by
  cases e with
  | elsewhere e => simp only [Event.unprotected, step, Sessions.step_unprotected]
  | openSession cookie request =>
    simp only [Event.unprotected, step, Registry.register_unprotected]
  | closeSession | resume | get | getOrError | count | cookies => rfl

theorem run_unprotected (m : Manager α) (events : List (Event α)) :
    m.run (events.map Event.unprotected) = m.run events := by
  induction events generalizing m with
  | nil => rfl
  | cons e events ih => simp only [List.map_cons, run, step_unprotected, ih]

end Manager

namespace Attempt

variable {α : Type}

def Event.unprotected : Event α → Event α
  | .elsewhere e => .elsewhere e.unprotected
  | e => e

theorem start_unprotected (spawn : List String → Except SystemFault (Unit × Child))
    (sessions : Sessions α) (registry : Registry) (cookie : String) (context : α)
    (request : OpenRequest) : start spawn sessions registry cookie context request.unprotected =
      start spawn sessions registry cookie context request := by
  rw [start, Registry.register_unprotected, start]

theorem step_unprotected (a : Attempt α) (e : Event α) : a.step e.unprotected = a.step e := by
  cases e with
  | elsewhere e =>
    simp only [Event.unprotected, step, Sessions.step_unprotected,
      Sessions.Event.leader?_unprotected]
  | receive | shutdown | unregister | flag | cancel | finish => rfl

theorem run_unprotected (a : Attempt α) (events : List (Event α)) :
    a.run (events.map Event.unprotected) = a.run events := by
  rw [run, List.foldlM_map, run]
  congr 1
  funext a e
  exact a.step_unprotected e

end Attempt

namespace Supervisor

theorem collectOnce_unprotected {α : Type} (s : Supervisor α) (cookie : String) (context : α)
    (request : OpenRequest) (shutdown : Shutdown) :
    s.collectOnce cookie context request.unprotected shutdown =
      s.collectOnce cookie context request shutdown := by
  rw [collectOnce, openSession, Registry.register_unprotected, ← openSession, ← collectOnce]

end Supervisor

theorem Collector.collect_unprotected (files : Host.Files) (environment : Host.Environment)
    (lines : List String) (o : Options) :
    collect files environment lines o.unprotected = collect files environment lines o := by
  let request : OpenRequest :=
    { uid := o.uid, pid := o.pid, serviceName := o.service, parameters := o.overrides }
  have config : o.unprotected.config = o.config := rfl
  have same := Supervisor.collectOnce_unprotected (.create files environment o.config)
    (Cookie.ofNumber 0) () request .onSignal
  simp only [OpenRequest.unprotected, request] at same
  simp only [collect, config]
  simp only [Options.unprotected, same]

def ParameterSet.IsUnprotected (set : ParameterSet) : Prop :=
  ∀ p ∈ set.entries, p.key ∉ protectedKeys

theorem Overrides.WellFormed.isUnprotected_mergeInto {o : Overrides} (h : o.WellFormed)
    (report : String) : (o.mergeInto report).IsUnprotected :=
  fun _ member => (h.key_of_mem_mergeInto member).2

namespace Sessions

variable {α : Type} {s : Sessions α} {record : List (Entry α)} {events : List (Event α)}

theorem wellFormed_overridesAfter
    (made : ∀ leader, .create leader ∈ events → leader.overrides.WellFormed) (n : Nat) :
    (overridesAfter events n).WellFormed := by
  rw [overridesAfter]
  cases lastOf (·.installed? n) events with
  | some ps => exact Overrides.wellFormed_ofList ps
  | none =>
    rw [Option.map_none, Option.getD_none, createdLeader]
    cases found : (events.filterMap Event.created?)[n]? with
    | none => exact .empty
    | some leader =>
      obtain ⟨e, member, creates⟩ := List.mem_filterMap.1 (List.mem_of_getElem? found)
      cases e with
      | create l => exact made leader (Option.some.inj creates ▸ member)
      | identify | override | newJob | collect | watch | complete | call | flag | cancel | terminate
      | proceed => cases creates

theorem isUnprotected_of_called (ran : ({} : Sessions α).run events = some (s, record))
    (made : ∀ leader, .create leader ∈ events → leader.overrides.WellFormed) {n id : Nat}
    {report : Report} {context : α} (called : .called n id report context ∈ record)
    {set : ParameterSet} (delivered : report.parameters = some set) : set.IsUnprotected := by
  obtain ⟨before, k, after, rfl, -, -, text, -, told⟩ := (provenance ran).called n id _ _ called
  have wf := wellFormed_overridesAfter (fun leader member => made leader
    (List.mem_append_left _ member)) n
  rcases told with ⟨-, nothing⟩ | ⟨-, how, -, result⟩
  · rw [nothing] at delivered
    cases delivered
  · rw [result] at delivered
    obtain ⟨-, same⟩ := Option.ite_none_right_eq_some.1 delivered
    exact Option.some.inj same ▸ wf.isUnprotected_mergeInto text

end Sessions

namespace Attempt

variable {α : Type} {a final : Attempt α} {o : Origin α} {record : List (Sessions.Entry α)}
  {events : List (Event α)} {set : ParameterSet}

theorem Invariant.isUnprotected (h : Invariant o a record events)
    (decided : Decided o record events (.ok (.collected set))) : set.IsUnprotected := by
  generalize same : (.ok (.collected set) : Except SessionError Outcome) = result at decided
  cases decided with
  | refused _ _ => cases same
  | shutdown _ _ => cases same
  | reported called _ =>
    obtain ⟨text, -, told⟩ := h.finished called
    rw [outcome_called] at same
    rcases told with ⟨-, nothing⟩ | ⟨-, how, -, result⟩
    · rw [nothing] at same
      cases same
    · rw [result] at same
      cases success : how.isSuccess with
      | false => simp [success] at same
      | true =>
        obtain rfl : set = _ := by simpa [success] using same
        exact (Overrides.wellFormed_ofList _).isUnprotected_mergeInto text

theorem isUnprotected_of_returned {before : Sessions α} {registry : Registry} {cookie : String}
    (reached : Sessions.Reached before record) (numbered : registry.opened = before.leaders.length)
    (free : registry.find? cookie = none)
    {spawn : List String → Except SystemFault (Unit × Child)} {context : α} {request : OpenRequest}
    (begun : start spawn before registry cookie context request = .ok a)
    (ran : a.run events = some final) (returned : final.stage = .returned (.ok (.collected set))) :
    set.IsUnprotected := by
  let o : Origin α := ⟨before, registry, cookie, request⟩
  obtain ⟨a', added, begun', inv, -⟩ := Invariant.start (o := o) spawn context reached numbered free
  obtain rfl : a = a' := Except.ok.inj (begun.symm.trans begun')
  obtain ⟨more, kept⟩ := inv.run free ran
  exact kept.isUnprotected (kept.returned returned).2.1

end Attempt

theorem Supervisor.Runs.isUnprotected_of_collectOnce {α : Type} {s next : Supervisor α}
    (h : Runs s) {cookie : String} (free : s.registry.find? cookie = none) {context : α}
    {request : OpenRequest} {shutdown : Shutdown} {set : ParameterSet}
    (collected : s.collectOnce cookie context request shutdown = (next, .ok (.collected set))) :
    set.IsUnprotected := by
  let o : Attempt.Origin α := ⟨s.toSessions, s.registry, cookie, request⟩
  obtain ⟨record, reached⟩ := h.reached
  obtain ⟨a, added, begun, inv, -⟩ := Attempt.Invariant.start (o := o)
    (forget (s.host.spawn s.owner)) context reached h.opened free
  obtain ⟨b, k, begun', events, final, ran, -, -, stage⟩ :=
    h.exists_attempt free context request shutdown
  obtain rfl : a = b := Except.ok.inj (begun.symm.trans begun')
  obtain ⟨more, kept⟩ := inv.run free ran
  rw [collected] at stage
  obtain ⟨-, -, -, -, decided, -⟩ := kept.cancelling stage
  exact kept.isUnprotected decided

/-- What two observers see who cannot look at entries with a protected key: the same, throughout. -/
structure Noninterference (α : Type) : Prop where
  stores : ∀ ps qs, Parameter.unprotected ps = Parameter.unprotected qs →
    Overrides.ofList ps = Overrides.ofList qs
  /-- Leaders come to the same state and their collections are told the same, whatever else goes on
  and however often overrides are installed. -/
  leaders : ∀ (s : Sessions α) events events',
    events.map Sessions.Event.unprotected = events'.map Sessions.Event.unprotected →
      s.run events = s.run events'
  /-- The same sessions are open under the same cookies, and every call is answered the same. -/
  register : ∀ (m : Manager α) events events',
    events.map Manager.Event.unprotected = events'.map Manager.Event.unprotected →
      m.run events = m.run events'
  assigned : ∀ (m : Manager α) cookie request, m.registry.find? cookie = none → ∃ next,
    m.step (.openSession cookie request) = some (next, [.opened cookie m.registry.opened
      { sessionId := some (Registry.sessionId m.registry.opened), cookie := some cookie
        serviceName := request.serviceName, uid := request.uid, pid := request.pid }])
  /-- One collection starts the same and has the same result, whatever its helper does and whenever
  it is shut down. -/
  attempts : ∀ spawn sessions registry cookie (context : α) request request',
    OpenRequest.unprotected request = OpenRequest.unprotected request' →
      Attempt.start spawn sessions registry cookie context request =
        Attempt.start spawn sessions registry cookie context request' ∧
      ∀ (a : Attempt α) events events',
        events.map Attempt.Event.unprotected = events'.map Attempt.Event.unprotected →
          a.run events = a.run events'
  machine : ∀ (s : Supervisor α) cookie context request request' shutdown,
    OpenRequest.unprotected request = OpenRequest.unprotected request' →
      s.collectOnce cookie context request shutdown =
        s.collectOnce cookie context request' shutdown
  /-- The program prints the same and ends with the same code. -/
  program : ∀ files environment lines o o', Options.unprotected o = Options.unprotected o' →
    Collector.collect files environment lines o = Collector.collect files environment lines o'
  /-- A leader's own overrides come from a list of parameters, unless it was made with others. -/
  delivered : ∀ events (s : Sessions α) record, ({} : Sessions α).run events = some (s, record) →
    (∀ leader, .create leader ∈ events → leader.overrides.WellFormed) →
    ∀ n id report context, .called n id report context ∈ record →
      ∀ set, report.parameters = some set → set.IsUnprotected
  returned : ∀ before record, Sessions.Reached before record → ∀ registry : Registry,
    registry.opened = before.leaders.length → ∀ cookie, registry.find? cookie = none →
    ∀ spawn (context : α) request a events final set,
      Attempt.start spawn before registry cookie context request = .ok a →
        a.run events = some final → final.stage = .returned (.ok (.collected set)) →
          set.IsUnprotected
  collected : ∀ (s : Supervisor α), s.Runs → ∀ cookie, s.registry.find? cookie = none →
    ∀ context request shutdown next set,
      s.collectOnce cookie context request shutdown = (next, .ok (.collected set)) →
        set.IsUnprotected

theorem noninterference (α : Type) : Noninterference α where
  stores ps qs alike := by
    rw [← Overrides.ofList_unprotected ps, alike, Overrides.ofList_unprotected]
  leaders s events events' alike := by
    rw [← s.run_unprotected events, alike, s.run_unprotected]
  register m events events' alike := by
    rw [← m.run_unprotected events, alike, m.run_unprotected]
  assigned m cookie request free := by
    simp only [Manager.step, Registry.register, free]
    exact ⟨_, rfl⟩
  attempts spawn sessions registry cookie context request request' alike := by
    constructor
    · rw [← Attempt.start_unprotected, alike, Attempt.start_unprotected]
    · intro a events events' alike
      rw [← a.run_unprotected events, alike, a.run_unprotected]
  machine s cookie context request request' shutdown alike := by
    rw [← s.collectOnce_unprotected cookie context request, alike, s.collectOnce_unprotected]
  program files environment lines o o' alike := by
    rw [← Collector.collect_unprotected, alike, Collector.collect_unprotected]
  delivered events s record ran made n id report context called set :=
    Sessions.isUnprotected_of_called ran made called
  returned before record reached registry numbered cookie free spawn context request a events final
    set := Attempt.isUnprotected_of_returned reached numbered free
  collected s h cookie free context request shutdown next set := h.isUnprotected_of_collectOnce free

def hiddenRequest : OpenRequest :=
  { parameters := [⟨"id", .text "1"⟩, ⟨"a", .text "x"⟩, ⟨"cookie", .boolean true⟩, ⟨"a", .text "y"⟩,
      ⟨"id", .boolean false⟩] }

def plainRequest : OpenRequest := { parameters := [⟨"a", .text "x"⟩, ⟨"a", .text "y"⟩] }

theorem noninterference_hidden : hiddenRequest ≠ plainRequest ∧
    hiddenRequest.unprotected = plainRequest.unprotected ∧
    Attempt.start Attempt.alwaysStarts Attempt.busy Attempt.busyRegistry "b" 8 hiddenRequest =
      Attempt.start Attempt.alwaysStarts Attempt.busy Attempt.busyRegistry "b" 8 plainRequest :=
  ⟨by decide, rfl, ((noninterference Nat).attempts _ _ _ _ _ _ _ rfl).1⟩

end LoginSession

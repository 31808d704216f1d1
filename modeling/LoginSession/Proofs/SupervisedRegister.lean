import LoginSession.Proofs.Management
import LoginSession.Proofs.SupervisedAttempt

namespace LoginSession

namespace Manager

variable {α : Type} {m : Manager α} {cookie : String} {n place : Nat}

theorem run_closeSession (taken : m.registry.find? cookie = some n)
    (there : m.places[n]? = some place) (known : place < m.sessions.leaders.length) :
    m.run [.closeSession cookie, .resume m.closings.length, .resume m.closings.length] = some
      ({ m with
        sessions := m.sessions.cancel place
        registry := m.registry.without cookie
        closings := m.closings ++
          [{ cookie, leader := n, stage := .cancelling m.sessions.cancellations.length }] },
        [.removed cookie n m.closings.length]) := by
  let flagged := m.sessions.setLeader place { m.sessions.leader place with cancelled := true }
  let given (sessions : Sessions α) (stage : Closing.Stage) : Manager α :=
    { m with
      sessions
      registry := m.registry.without cookie
      closings := m.closings ++ [{ cookie, leader := n, stage }] }
  have removes : m.step (.closeSession cookie) =
      some (given m.sessions .removed, [.removed cookie n m.closings.length]) := by
    rw [step, Registry.close_of_found taken]
  have flags : (given m.sessions .removed).step (.resume m.closings.length) =
      some (given flagged .flagged, []) := by
    simp [step, proceed, given, there, Sessions.step, known, flagged]
  have cancels : (given flagged .flagged).step (.resume m.closings.length) = some
      (given (m.sessions.cancel place) (.cancelling m.sessions.cancellations.length), []) := by
    have known' : place < flagged.leaders.length := Nat.lt_of_lt_of_eq known List.length_set.symm
    -- the flag makes no difference to a leader that is cancelled anyway
    have same : flagged.cancel place = m.sessions.cancel place := Sessions.cancel_flag known
    have waiting : flagged.cancellations = m.sessions.cancellations := rfl
    simp [step, proceed, given, there, Sessions.step, known', same, waiting]
  exact run_trans (run_single removes) (run_trans (run_single flags) (run_single cancels))

end Manager

namespace Supervisor

variable {α : Type} {s next : Supervisor α} {record : List Manager.Entry} {cookie : String}
  {n : Nat}

/-- On the machine a leader stands at the place of its number. -/
def manager (s : Supervisor α) (closings : List Closing) : Manager α :=
  { sessions := s.toSessions
    registry := s.registry
    places := List.range s.leaders.length
    closings }

/-- This is a record of all that has been done with the register of the machine. -/
def Manages (s : Supervisor α) (record : List Manager.Entry) : Prop :=
  ∃ closings, Manager.Reached (s.manager closings) record

namespace Manages

theorem runs (h : s.Manages record) : Runs s := by
  obtain ⟨closings, reached⟩ := h
  have inv := Manager.Invariant.of_reached reached
  have opened : s.registry.opened = s.leaders.length :=
    inv.placed.numbered.symm.trans List.length_range
  refine ⟨inv.reached, opened, fun entry member => opened ▸ inv.lt_opened ?_⟩
  exact List.mem_append_left _ (List.mem_map_of_mem member)

theorem of_step (h : s.Manages record) {e : Manager.Event α} {added : List Manager.Entry}
    (st : ∀ closings, (s.manager closings).step e = some (next.manager closings, added)) :
    next.Manages (record ++ added) := by
  obtain ⟨closings, reached⟩ := h
  exact ⟨closings, reached.step (st closings)⟩

theorem goes (h : s.Manages record) (goes : s.Goes next) : next.Manages record := by
  obtain ⟨closings, reached⟩ := h
  obtain ⟨events, _, ran, -⟩ := goes.ran
  have same : { s.manager closings with sessions := next.toSessions } = next.manager closings := by
    rw [manager, manager, goes.registry, goes.leaders]
  have last := reached.run (Manager.run_elsewhere ran)
  rw [same, List.append_nil] at last
  exact ⟨closings, last⟩

theorem collect_frame (s : Supervisor α) (n : Nat) (context : α) :
    (s.collect n context).1.toSessions =
        (s.toSessions.collect (s.host.spawn s.owner) n context).1 ∧
      (s.collect n context).1.registry = s.registry := by
  unfold Supervisor.collect
  split <;> simp [*]

theorem collect (h : s.Manages record) (known : n < s.leaders.length) (context : α) :
    (s.collect n context).1.Manages record := by
  obtain ⟨closings, reached⟩ := h
  obtain ⟨sessions, registry⟩ := collect_frame s n context
  obtain ⟨_, st⟩ := Sessions.exists_step_collect (s.host.spawn s.owner) known context
  have kept := Sessions.length_leaders_collect (s.host.spawn s.owner) s.toSessions n context
  have collected : (s.manager closings).step
      (.elsewhere (.collect n context (forget (s.host.spawn s.owner)))) =
        some ((s.collect n context).1.manager closings, []) := by
    simp [Manager.step, manager, st, sessions, registry, kept]
  exact ⟨closings, List.append_nil record ▸ reached.step collected⟩

theorem cancelLeader (h : s.Manages record) (known : n < s.leaders.length) :
    (s.cancelLeader n).Manages record := by
  have runs := h.runs
  obtain ⟨closings, reached⟩ := h
  have length : (s.toSessions.cancel n).leaders.length = s.leaders.length := List.length_set
  have cancelled : (s.manager closings).step (.elsewhere (.cancel n)) =
      some (Supervisor.manager { s with toSessions := s.toSessions.cancel n } closings, []) := by
    rw [Manager.step, manager, Runs.step_cancel known, manager, length]
    rfl
  have asked : Manages { s with toSessions := s.toSessions.cancel n } record :=
    ⟨closings, List.append_nil record ▸ reached.step cancelled⟩
  exact asked.goes (runs.cancelLeader known)

theorem openSession (h : s.Manages record) {request : OpenRequest}
    (opened : s.openSession cookie request = .ok (next, n)) :
    ∃ identity, next.Manages (record ++ [.opened cookie n identity]) := by
  have numbered := h.runs.opened
  cases found : s.registry.find? cookie with
  | some _ =>
    rw [Supervisor.openSession, Registry.register_of_taken request found] at opened
    cases opened
  | none =>
    rw [Supervisor.openSession, Registry.register_of_free request found] at opened
    cases opened
    refine ⟨(s.registry.leaderFor cookie request).identity,
      h.of_step (e := .openSession cookie request) fun closings => ?_⟩
    have free : (s.manager closings).registry.find? cookie = none := found
    rw [Manager.step, Registry.register_of_free request free]
    simp [manager, numbered, Sessions.newLeader, List.range_succ]

theorem refused (h : s.Manages record) {request : OpenRequest} {e : SessionError}
    (refused : s.openSession cookie request = .error e) :
    s.Manages (record ++ [.refused cookie e]) := by
  cases found : s.registry.find? cookie with
  | some n =>
    rw [Supervisor.openSession, Registry.register_of_taken request found] at refused
    cases refused
    refine h.of_step (e := .openSession cookie request) fun closings => ?_
    have taken : (s.manager closings).registry.find? cookie = some n := found
    rw [Manager.step, Registry.register_of_taken request taken]
  | none =>
    rw [Supervisor.openSession, Registry.register_of_free request found] at refused
    cases refused

theorem closeSession (h : s.Manages record) (closed : s.closeSession cookie = .ok next) :
    ∃ n k, next.Manages (record ++ [.removed cookie n k]) := by
  cases found : s.registry.find? cookie with
  | none =>
    rw [Supervisor.closeSession, Registry.close_of_free found] at closed
    cases closed
  | some n =>
    rw [Supervisor.closeSession, Registry.close_of_found found] at closed
    cases closed
    have runs := h.runs
    obtain ⟨closings, reached⟩ := h
    have known : n < s.leaders.length := by
      obtain ⟨front, back, entries, -⟩ := List.lookup_eq_some_iff.1 found
      exact runs.known (cookie, n) (by simp [entries])
    have left : Runs { s with registry := s.registry.without cookie } :=
      ⟨runs.reached, runs.opened, fun entry member =>
        runs.known entry (List.mem_filter.1 member).1⟩
    have closing := reached.run (Manager.run_closeSession (m := s.manager closings) found
      (List.getElem?_range known) known)
    have manages : Manages { s with
        toSessions := s.toSessions.cancel n, registry := s.registry.without cookie }
        (record ++ [.removed cookie n closings.length]) := by
      refine ⟨closings ++ [⟨cookie, n, .cancelling s.cancellations.length⟩], ?_⟩
      have length : (s.toSessions.cancel n).leaders.length = s.leaders.length := List.length_set
      rw [manager, length]
      exact closing
    exact ⟨n, closings.length, manages.goes (left.cancelLeader known)⟩

theorem missed (h : s.Manages record) {e : SessionError} (missed : s.closeSession cookie = .error e) :
    s.Manages (record ++ [.missed cookie e]) := by
  cases found : s.registry.find? cookie with
  | some n =>
    rw [Supervisor.closeSession, Registry.close_of_found found] at missed
    cases missed
  | none =>
    rw [Supervisor.closeSession, Registry.close_of_free found] at missed
    cases missed
    refine h.of_step (e := .closeSession cookie) fun closings => ?_
    have free : (s.manager closings).registry.find? cookie = none := found
    rw [Manager.step, Registry.close_of_free free]

theorem closeAfter {β : Type} (h : s.Manages record) (cookie : String)
    (result : Except SessionError β) :
    ∃ more, (s.closeAfter cookie result).1.Manages (record ++ more) := by
  unfold Supervisor.closeAfter
  split
  · rename_i next closed
    obtain ⟨n, k, manages⟩ := h.closeSession closed
    exact ⟨_, manages⟩
  · rename_i e missed
    exact ⟨_, h.missed missed⟩

theorem collectOnce (h : s.Manages record) (cookie : String) (context : α) (request : OpenRequest)
    (shutdown : Shutdown) :
    ∃ more, (s.collectOnce cookie context request shutdown).1.Manages (record ++ more) := by
  unfold Supervisor.collectOnce
  split
  · rename_i e refused
    exact ⟨_, h.refused refused⟩
  · rename_i opened leader same
    obtain ⟨identity, made⟩ := h.openSession same
    have known : leader < opened.leaders.length := (h.runs.openSession same).2
    have started := made.collect known context
    split
    · rename_i next _ failed
      rw [failed] at started
      obtain ⟨more, closed⟩ := started.closeAfter cookie
        (.error (Attempt.notStarted next.registry.config.helper) : Except SessionError Outcome)
      exact ⟨_, List.append_assoc .. ▸ closed⟩
    · rename_i next collection running
      rw [running] at started
      have waited := started.goes (started.runs.runUntil (shutdown.deadline? next) fun s =>
        isEnded collection s || (shutdown = .onSignal && s.isSignalled))
      dsimp only
      split
      · exact ⟨_, waited⟩
      · obtain ⟨more, closed⟩ := waited.closeAfter cookie _
        exact ⟨_, List.append_assoc .. ▸ closed⟩

end Manages

/-- What the operations of its sessions make of a machine. -/
inductive Made : Supervisor α → Prop where
  | create (files : Host.Files) (environment : Host.Environment) (config : Config) :
    Made (.create files environment config)
  | wait {s : Supervisor α} (made : Made s) (deadline : Option Nat) (done : Supervisor α → Bool) :
    Made (s.runUntil deadline done)
  | collect {s : Supervisor α} {n : Nat} (made : Made s) (known : n < s.leaders.length)
    (context : α) : Made (s.collect n context).1
  | cancelLeader {s : Supervisor α} {n : Nat} (made : Made s) (known : n < s.leaders.length) :
    Made (s.cancelLeader n)
  | openSession {s next : Supervisor α} {cookie : String} {request : OpenRequest} {n : Nat}
    (made : Made s) (opened : s.openSession cookie request = .ok (next, n)) : Made next
  | closeSession {s next : Supervisor α} {cookie : String} (made : Made s)
    (closed : s.closeSession cookie = .ok next) : Made next
  | collectOnce {s : Supervisor α} (made : Made s) (cookie : String) (context : α)
    (request : OpenRequest) (shutdown : Shutdown) :
    Made (s.collectOnce cookie context request shutdown).1

theorem Made.manages (made : s.Made) : ∃ record, s.Manages record := by
  induction made with
  | create files environment config => exact ⟨[], [], .start config⟩
  | wait _ deadline done ih =>
    obtain ⟨record, manages⟩ := ih
    exact ⟨record, manages.goes (manages.runs.runUntil deadline done)⟩
  | collect _ known context ih =>
    obtain ⟨record, manages⟩ := ih
    exact ⟨record, manages.collect known context⟩
  | cancelLeader _ known ih =>
    obtain ⟨record, manages⟩ := ih
    exact ⟨record, manages.cancelLeader known⟩
  | openSession _ opened ih =>
    obtain ⟨record, manages⟩ := ih
    obtain ⟨identity, manages⟩ := manages.openSession opened
    exact ⟨_, manages⟩
  | closeSession _ closed ih =>
    obtain ⟨record, manages⟩ := ih
    obtain ⟨n, k, manages⟩ := manages.closeSession closed
    exact ⟨_, manages⟩
  | collectOnce _ cookie context request shutdown ih =>
    obtain ⟨record, manages⟩ := ih
    obtain ⟨more, manages⟩ := manages.collectOnce cookie context request shutdown
    exact ⟨_, manages⟩

end Supervisor

end LoginSession

import LoginSession.Proofs.Attempt
import LoginSession.Proofs.Supervision

namespace LoginSession

theorem Sessions.cancel_flag {α : Type} {s : Sessions α} {n : Nat} (known : n < s.leaders.length) :
    (s.setLeader n { s.leader n with cancelled := true }).cancel n = s.cancel n := by
  have leader := leader_setLeader known { s.leader n with cancelled := true } n
  rw [if_pos rfl] at leader
  simp only [cancel, leader, Leader.cancel]
  simp only [setLeader, List.set_set]

namespace Supervisor

variable {α : Type} {s next : Supervisor α}

/-- From here the attempt can come to where the machine is, and to this stage. -/
def Mirrors (a : Attempt α) (s : Supervisor α) (stage : Attempt.Stage) : Prop :=
  ∃ events final, a.run events = some final ∧ final.sessions = s.toSessions ∧
    final.registry = s.registry ∧ final.stage = stage

namespace Mirrors

variable {a b : Attempt α} {stage : Attempt.Stage}

theorem refl (sessions : a.sessions = s.toSessions) (registry : a.registry = s.registry) :
    Mirrors a s a.stage := ⟨[], a, rfl, sessions, registry, rfl⟩

theorem of_run {events : List (Attempt.Event α)} (ran : a.run events = some b)
    (h : Mirrors b s stage) : Mirrors a s stage := by
  obtain ⟨more, final, rest, same⟩ := h
  exact ⟨events ++ more, final, Attempt.run_trans ran rest, same⟩

theorem of_step {e : Attempt.Event α} (st : a.step e = some b) (h : Mirrors b s stage) :
    Mirrors a s stage := of_run (Attempt.run_single st) h

end Mirrors

theorem Goes.exists_run {a : Attempt α} (goes : s.Goes next) (sessions : a.sessions = s.toSessions) :
    ∃ events, a.run events = some { a with sessions := next.toSessions } := by
  obtain ⟨events, added, ran, unled⟩ := goes.ran
  rw [← sessions] at ran
  refine ⟨_, Attempt.run_elsewhere ran fun e member => ?_⟩
  simp [unled e member]

open Attempt

variable {a : Attempt α} {o : Origin α} {record : List (Sessions.Entry α)}
  {events : List (Attempt.Event α)}

def closing (a : Attempt α) (o : Origin α) (sessions : Sessions α) (stage : Attempt.Stage) :
    Attempt α :=
  { a with sessions, registry := o.closed, leader := o.leader, stage }

theorem Runs.mirrors_closeAfter (h : Runs s) (inv : Invariant o a record events)
    (free : o.registry.find? o.cookie = none) (sessions : a.sessions = s.toSessions)
    (registry : a.registry = s.registry) {result : Except SessionError Outcome}
    (decided : a.stage = .decided result) :
    ∃ k, Mirrors a (s.closeAfter o.cookie result).1
      (.cancelling k (s.closeAfter o.cookie result).2) := by
  have opened : s.registry = o.opened := registry.symm.trans (inv.decided decided).1
  have known : o.leader < s.leaders.length := by
    rw [← sessions]
    exact inv.owned.known
  have closes : s.closeAfter o.cookie result =
      (Supervisor.cancelLeader { s with registry := o.closed } o.leader, result) := by
    rw [Supervisor.closeAfter, Supervisor.closeSession, opened, o.close_opened free]
  have left : Runs { s with registry := o.closed } :=
    ⟨h.reached, (congrArg Registry.opened opened).symm.trans h.opened, fun entry member =>
      h.known entry (opened ▸ List.mem_append_left _ member)⟩
  let flagged := s.toSessions.setLeader o.leader { s.leader o.leader with cancelled := true }
  have unregister : a.step .unregister = some (closing a o s.toSessions (.removed result)) := by
    simp [Attempt.step, decided, inv.cookie, registry, opened, o.close_opened free, closing,
      sessions]
  have flag : (closing a o s.toSessions (.removed result)).step .flag =
      some (closing a o flagged (.flagged result)) := by
    simp [Attempt.step, closing, Sessions.step, known, flagged]
  have cancel : (closing a o flagged (.flagged result)).step .cancel =
      some (closing a o (s.toSessions.cancel o.leader)
        (.cancelling s.cancellations.length result)) := by
    have known' : o.leader < flagged.leaders.length :=
      Nat.lt_of_lt_of_eq known List.length_set.symm
    simp only [Attempt.step, closing, Sessions.step, known', if_true, Option.map_some,
      flagged, Sessions.cancel_flag known]
    rfl
  have goes := left.cancelLeader known
  obtain ⟨more, ran⟩ := goes.exists_run (a := closing a o (s.toSessions.cancel o.leader)
    (.cancelling s.cancellations.length result)) rfl
  rw [closes]
  exact ⟨_, .of_step unregister (.of_step flag (.of_step cancel
    (.of_run ran (.refl rfl goes.registry.symm))))⟩

theorem Runs.mirrors_waited (h : Runs s) (inv : Invariant o a record events)
    (free : o.registry.find? o.cookie = none) (sessions : a.sessions = s.toSessions)
    (registry : a.registry = s.registry) (waiting : a.stage = .waiting) (goes : s.Goes next) :
    ∃ outcome k, (next.ending o.collection).outcome = .ok outcome ∧
      Mirrors a (next.closeAfter o.cookie (.ok outcome)).1
        (.cancelling k (next.closeAfter o.cookie (.ok outcome)).2) := by
  obtain ⟨_, ran⟩ := goes.exists_run sessions
  obtain ⟨_, waited⟩ := inv.run free ran
  obtain ⟨-, undrained, -, _, started⟩ := waited.waiting waiting
  -- a collection that still waits has been given up, however that has come about
  obtain ⟨e, outcome, amounts, st⟩ : ∃ e outcome, (next.ending o.collection).outcome = .ok outcome ∧
      Attempt.step { a with sessions := next.toSessions } e =
        some { a with sessions := next.toSessions, stage := .decided (.ok outcome) } := by
    rcases waited.owned.ending_cases started undrained with waits | ⟨report, _, called, -⟩
    · rw [waits]
      exact ⟨.shutdown, .cancelled, rfl, by simp [Attempt.step, waiting]⟩
    · rw [called, outcome_called]
      refine ⟨.receive, _, rfl, ?_⟩
      simp [Attempt.step, waiting, inv.collection, called, outcome_called]
  obtain ⟨_, decided⟩ := waited.step free st
  obtain ⟨k, mirrors⟩ := (h.of_goes goes).mirrors_closeAfter decided free rfl
    (registry.trans goes.registry.symm) rfl
  exact ⟨outcome, k, amounts, .of_run ran (.of_step st mirrors)⟩

theorem Runs.openSession_eq (h : Runs s) {cookie : String} {request : OpenRequest}
    (same : o = ⟨s.toSessions, s.registry, cookie, request⟩)
    (free : o.registry.find? o.cookie = none) : s.openSession cookie request =
      .ok ({ s with toSessions := o.made, registry := o.opened }, o.leader) := by
  subst same
  rw [Supervisor.openSession, Origin.register_eq _ free h.opened]
  rfl

/-- What the machine does in one collection, and what it answers, is what an attempt with the same
helper may do and return. -/
theorem Runs.exists_attempt (h : Runs s) {cookie : String}
    (free : s.registry.find? cookie = none) (context : α) (request : OpenRequest)
    (shutdown : Shutdown) : ∃ a k,
      Attempt.start (forget (s.host.spawn s.owner)) s.toSessions s.registry cookie context
        request = .ok a ∧
      Mirrors a (s.collectOnce cookie context request shutdown).1
        (.cancelling k (s.collectOnce cookie context request shutdown).2) := by
  let o : Origin α := ⟨s.toSessions, s.registry, cookie, request⟩
  obtain ⟨record, reached⟩ := h.reached
  obtain ⟨a, added, begun, inv, -⟩ :=
    Invariant.start (o := o) (forget (s.host.spawn s.owner)) context reached h.opened free
  have opened := h.openSession_eq (o := o) rfl free
  obtain ⟨made, known⟩ := h.openSession opened
  have collected := made.collect known context
  have result := begun
  rw [o.start_eq free h.opened, Sessions.collect_forget] at result
  rw [Supervisor.collectOnce, opened]
  dsimp only [Supervisor.collect] at result collected ⊢
  generalize o.made.collect (s.host.spawn s.owner) o.leader context = started
    at result collected ⊢
  refine ⟨a, ?_⟩
  obtain ⟨sessions, _ | host⟩ := started
  · obtain rfl := Except.ok.inj result
    obtain ⟨k, mirrors⟩ := collected.mirrors_closeAfter inv free rfl rfl rfl
    exact ⟨k, begun, mirrors⟩
  · obtain rfl := Except.ok.inj result
    let begins : Supervisor α := { s with toSessions := sessions, registry := o.opened, host }
    have goes : begins.Goes _ := collected.runUntil (shutdown.deadline? begins) fun s =>
      isEnded o.collection s || (shutdown = .onSignal && s.isSignalled)
    obtain ⟨outcome, k, amounts, mirrors⟩ :=
      Runs.mirrors_waited collected inv free rfl rfl rfl goes
    refine ⟨k, begun, ?_⟩
    dsimp only
    rw [show o.made.collections.length = o.collection from rfl, amounts]
    exact mirrors

end Supervisor

end LoginSession

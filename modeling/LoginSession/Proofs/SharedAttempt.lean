import LoginSession.Proofs.Attempt
import LoginSession.Proofs.Management
import LoginSession.Session.SharedAttempt

namespace LoginSession

namespace SharedAttempt

open Manager (closeCalls)

variable {α : Type} {a next final : SharedAttempt α} {e : Event α}
  {added after more : List Manager.Entry} {events later : List (Event α)}

def Cancels (events : List (Event α)) (place : Nat) : Prop :=
  .elsewhere (.elsewhere (.cancel place)) ∈ events

inductive Moves (a : SharedAttempt α) : Event α → SharedAttempt α → List Manager.Entry → Prop where
  | elsewhere {e : Manager.Event α} {manager : Manager α} {added : List Manager.Entry}
    (st : a.manager.step e = some (manager, added)) :
    Moves a (.elsewhere e) { a with manager } added
  | collect {context : α} {spawn : List String → Except SystemFault (Unit × Child)} {place : Nat}
    (opened : a.stage = .opened) (there : a.manager.places[a.leader]? = some place) :
    Moves a (.collect context spawn) (a.collect place context spawn) []
  | receive {collection : Nat} {report : Report} {outcome : Outcome}
    (waiting : a.stage = .waiting collection)
    (called : a.manager.sessions.ending collection = .called report)
    (amounts : (Ending.called report).outcome = .ok outcome) :
    Moves a .receive { a with stage := .decided (.ok outcome) } []
  | lose {collection : Nat} (waiting : a.stage = .waiting collection)
    (dropped : a.manager.sessions.ending collection = .dropped) :
    Moves a .receive { a with stage := .returned Ending.dropped.outcome } []
  | shutdown {collection : Nat} (waiting : a.stage = .waiting collection) :
    Moves a .shutdown { a with stage := .decided (.ok .cancelled) } []
  | close {result : Except SessionError Outcome} {leader : Nat} {manager : Manager α}
    (decided : a.stage = .decided result)
    (st : a.manager.step (.closeSession a.cookie) =
      some (manager, [.removed a.cookie leader a.manager.closings.length])) :
    Moves a .close { a with manager, stage := .closing a.manager.closings.length result }
      [.removed a.cookie leader a.manager.closings.length]
  | miss {result : Except SessionError Outcome} {e : SessionError} {manager : Manager α}
    (decided : a.stage = .decided result)
    (st : a.manager.step (.closeSession a.cookie) = some (manager, [.missed a.cookie e])) :
    Moves a .close { a with manager, stage := .returned (.error e) } [.missed a.cookie e]
  | finish {k : Nat} {result : Except SessionError Outcome} (closing : a.stage = .closing k result)
    (closed : (a.manager.closings[k]?).map (·.stage) = some .returned) :
    Moves a .finish { a with stage := .returned result } []

theorem moves_of_step (h : a.step e = some (next, added)) : a.Moves e next added := by
  cases e with
  | elsewhere e =>
    obtain ⟨⟨manager, told⟩, st, same⟩ := Option.map_eq_some_iff.1 h
    cases same
    exact .elsewhere st
  | collect context spawn =>
    simp only [step] at h
    split at h
    · rename_i opened there
      cases h
      exact .collect opened there
    · cases h
  | receive =>
    simp only [step] at h
    split at h
    · rename_i collection waiting
      cases ended : a.manager.sessions.ending collection with
      | waiting =>
        rw [ended] at h
        cases h
      | called report =>
        simp only [ended, Attempt.outcome_called] at h
        cases h
        exact .receive waiting ended (Attempt.outcome_called report)
      | dropped =>
        rw [ended] at h
        cases h
        exact .lose waiting ended
    · cases h
  | shutdown =>
    simp only [step] at h
    split at h
    · rename_i waiting
      cases h
      exact .shutdown waiting
    · cases h
  | close =>
    simp only [step] at h
    split at h
    · rename_i result decided
      obtain ⟨⟨manager, told⟩, st, same⟩ := Option.map_eq_some_iff.1 h
      cases Manager.moves_of_step st with
      | removed taken =>
        cases same
        exact .close decided st
      | missed free =>
        cases same
        exact .miss decided st
    · cases h
  | finish =>
    simp only [step] at h
    split at h
    · rename_i k result closing
      obtain ⟨closed, same⟩ := Option.ite_none_right_eq_some.1 h
      cases same
      exact .finish closing closed
    · cases h

/-- What is so at each stage of an attempt whose leader is at a place. While it waits, only another
task's cancellation can have drained its collection unless its session has been closed. -/
inductive Standing (m : Manager α) (cookie : String) (place : Nat) (after : List Manager.Entry)
    (events : List (Event α)) : Stage → Prop where
  | opened : Standing m cookie place after events .opened
  | waiting {k : Nat} {c : Collection α} {context : α} {told : List (Sessions.Entry α)}
    (reached : Sessions.Reached m.sessions told) (here : m.sessions.collections[k]? = some c)
    (started : .started place c.job context ∈ told)
    (undrained : closeCalls cookie after = [] → ¬Cancels events place →
      ∀ n, .drained n c.job ∉ told) : Standing m cookie place after events (.waiting k)
  | decided {result : Except SessionError Outcome} :
    Standing m cookie place after events (.decided result)
  | closing {k : Nat} {result : Except SessionError Outcome}
    (called : closeCalls cookie after ≠ []) :
    Standing m cookie place after events (.closing k result)
  | returned {result : Except SessionError Outcome}
    (left : closeCalls cookie after = [] →
      result = Ending.dropped.outcome ∧ Cancels events place) :
    Standing m cookie place after events (.returned result)

namespace Standing

variable {m next : Manager α} {cookie : String} {place : Nat} {stage : Stage}

theorem elsewhere {e : Manager.Event α} (h : Standing m cookie place after events stage)
    (moves : m.Moves e next added)
    (unclosed : closeCalls cookie after = [] → ∀ (k : Nat) (c : Closing), m.closings[k]? = some c →
      m.places[c.leader]? ≠ some place) :
    Standing next cookie place (after ++ added) (events ++ [.elsewhere e]) stage := by
  have uncalled : closeCalls cookie (after ++ added) = [] → closeCalls cookie after = [] := by
    rw [Manager.closeCalls_append]
    exact fun none => (List.append_eq_nil_iff.1 none).1
  have cancels : Cancels events place → Cancels (events ++ [.elsewhere e]) place :=
    List.mem_append_left _
  cases h with
  | opened => exact .opened
  | decided => exact .decided
  | closing called => exact .closing (mt uncalled called)
  | returned left => exact .returned fun none => (left (uncalled none)).imp_right cancels
  | @waiting k c context told reached here started undrained =>
    have before : closeCalls cookie (after ++ added) = [] →
        ¬Cancels (events ++ [.elsewhere e]) place → ∀ n, .drained n c.job ∉ told :=
      fun none uncancelled => undrained (uncalled none) (mt cancels uncancelled)
    rcases moves.cancels with same | ⟨operation, more, st, whose⟩
    · rw [← same] at reached here
      exact .waiting reached here started before
    · obtain ⟨c', there, same⟩ := (Sessions.moves_of_step st).collection here
      obtain ⟨-, job⟩ := Prod.mk.inj same
      have later := reached.step st
      refine .waiting later there (List.mem_append_left _ (job ▸ started)) ?_
      rw [job]
      intro none uncancelled n drained
      rcases List.mem_append.1 drained with old | now
      · exact before none uncancelled n old
      · obtain rfl := (Sessions.Accounted.of_reached later).leader_of_drained
          (List.mem_append_left _ started) drained
        rcases whose n (Sessions.eq_cancel_of_drained st now) with rfl | ⟨k, c, closing, closed⟩
        · exact uncancelled (by simp [Cancels])
        · exact unclosed (uncalled none) k c closing closed

end Standing

structure Invariant (a : SharedAttempt α) (before : List Manager.Entry) (identity : Identity)
    (place : Nat) (after : List Manager.Entry) (events : List (Event α)) : Prop where
  reached : Manager.Reached a.manager (before ++ .opened a.cookie a.leader identity :: after)
  unopened : ∀ entry ∈ after, entry.isOpeningOf a.cookie = false
  there : a.manager.places[a.leader]? = some place
  standing : Standing a.manager a.cookie place after events a.stage

namespace Invariant

variable {before : List Manager.Entry} {identity : Identity} {place : Nat}

theorem closedOnce (h : Invariant a before identity place after events) :
    Manager.ClosedOnce (before ++ .opened a.cookie a.leader identity :: after) after a.cookie
      a.leader :=
  (Manager.Invariant.of_reached h.reached).fits.closedOnce h.unopened

theorem registered (h : Invariant a before identity place after events)
    (uncalled : closeCalls a.cookie after = []) :
    a.manager.registry.find? a.cookie = some a.leader := by
  cases h.closedOnce with
  | unclosed holds _ => exact ((Manager.Invariant.of_reached h.reached).books.found _ _).2 holds
  | closed _ _ _ called =>
    rw [uncalled] at called
    cases called

theorem unregistered (h : Invariant a before identity place after events)
    (called : closeCalls a.cookie after ≠ []) : a.manager.registry.find? a.cookie = none := by
  cases h.closedOnce with
  | unclosed _ uncalled => exact absurd uncalled called
  | closed _ _ free _ => exact (Manager.Invariant.of_reached h.reached).books.free_iff.2 free

theorem elsewhere (h : Invariant a before identity place after events) {e : Manager.Event α}
    {manager : Manager α} (st : a.manager.step e = some (manager, added))
    (unopened : ∀ entry ∈ added, entry.isOpeningOf a.cookie = false) :
    Invariant { a with manager } before identity place (after ++ added)
      (events ++ [.elsewhere e]) := by
  have moves := Manager.moves_of_step st
  have reached := h.reached.step st
  rw [List.append_assoc, List.cons_append] at reached
  refine ⟨reached, List.forall_mem_append.2 ⟨h.unopened, unopened⟩, moves.places h.there,
    h.standing.elsewhere moves fun uncalled k c here closed => ?_⟩
  exact (Manager.Invariant.of_reached h.reached).place_ne (h.registered uncalled) here h.there
    closed rfl

theorem still (h : Invariant a before identity place after events) {stage : Stage}
    (standing : Standing a.manager a.cookie place after (events ++ [e]) stage) :
    Invariant { a with stage } before identity place after (events ++ [e]) :=
  ⟨h.reached, h.unopened, h.there, standing⟩

theorem collect (h : Invariant a before identity place after events) (context : α)
    (spawn : List String → Except SystemFault (Unit × Child)) :
    Invariant (a.collect place context spawn) before identity place after
      (events ++ [.collect context spawn]) := by
  have managed := Manager.Invariant.of_reached h.reached
  obtain ⟨told, reached⟩ := managed.reached
  have known := managed.placed.known place (List.mem_of_getElem? h.there)
  have step : a.manager.sessions.step (.collect place context spawn) = _ := if_pos known
  have moved : ∀ {sessions : Sessions α} {more : List (Sessions.Entry α)},
      a.manager.sessions.step (.collect place context spawn) = some (sessions, more) →
      Manager.Reached { a.manager with sessions }
        (before ++ .opened a.cookie a.leader identity :: after) := by
    intro sessions more st
    have next : a.manager.step (.elsewhere (.collect place context spawn)) =
        some ({ a.manager with sessions }, []) := by simp [Manager.step, st]
    have reached := h.reached.step next
    rwa [List.append_nil] at reached
  rw [SharedAttempt.collect]
  rcases Sessions.collect_cases a.manager.sessions place context spawn with
    ⟨-, child, collected⟩ | ⟨-, collected⟩
  · rw [collected] at step ⊢
    refine ⟨moved step, h.unopened, h.there, ?_⟩
    -- its job is new, so nothing has been said of it but that it has been started
    have fresh : ∀ n, .drained n (a.manager.sessions.jobs.length + 1) ∉ told := fun n =>
      (Sessions.Accounted.of_reached reached).not_mem_of_job rfl
    exact .waiting (reached.step step) List.getElem?_concat_length
      (List.mem_append_right _ (List.mem_singleton_self _)) (by simpa using fun _ _ => fresh)
  · rw [collected] at step ⊢
    exact ⟨moved step, h.unopened, h.there, .decided⟩

theorem lose (h : Invariant a before identity place after events) {k : Nat}
    (waiting : a.stage = .waiting k) (dropped : a.manager.sessions.ending k = .dropped) :
    Invariant { a with stage := .returned Ending.dropped.outcome } before identity place after
      (events ++ [.receive]) := by
  refine h.still (.returned fun uncalled => ⟨rfl, ?_⟩)
  have standing := h.standing
  rw [waiting] at standing
  cases standing with
  | @waiting _ c _ told reached here started undrained =>
    have ended : c.ending = .dropped := by simpa [Sessions.ending, here] using dropped
    have drained := (Sessions.Accounted.of_reached reached).drained_of_dropped
      (List.mem_of_getElem? here) ended started
    by_contra uncancelled
    exact undrained uncalled (fun before => uncancelled (List.mem_append_left _ before)) _ drained

theorem close (h : Invariant a before identity place after events) {manager : Manager α}
    {entry : Manager.Entry} {stage : Stage}
    (st : a.manager.step (.closeSession a.cookie) = some (manager, [entry]))
    (call : entry.isCloseOf a.cookie = true)
    (unopened : ∀ x ∈ [entry], x.isOpeningOf a.cookie = false)
    (standing : closeCalls a.cookie (after ++ [entry]) ≠ [] →
      Standing manager a.cookie place (after ++ [entry]) (events ++ [e]) stage) :
    Invariant { a with manager, stage } before identity place (after ++ [entry])
      (events ++ [e]) := by
  have called : closeCalls a.cookie (after ++ [entry]) ≠ [] := by
    simp [Manager.closeCalls_concat, call]
  have reached := h.reached.step st
  rw [List.append_assoc, List.cons_append] at reached
  exact ⟨reached, List.forall_mem_append.2 ⟨h.unopened, unopened⟩,
    (Manager.moves_of_step st).places h.there, standing called⟩

theorem finish (h : Invariant a before identity place after events) {k : Nat}
    {result : Except SessionError Outcome} (closing : a.stage = .closing k result) :
    Invariant { a with stage := .returned result } before identity place after
      (events ++ [.finish]) := by
  have standing := h.standing
  rw [closing] at standing
  cases standing with
  | closing called => exact h.still (.returned fun uncalled => absurd uncalled called)

theorem step (h : Invariant a before identity place after events)
    (st : a.step e = some (next, added))
    (unopened : ∀ entry ∈ added, entry.isOpeningOf a.cookie = false) :
    Invariant next before identity place (after ++ added) (events ++ [e]) ∧
      next.cookie = a.cookie ∧ next.leader = a.leader := by
  have silent : Invariant next before identity place after (events ++ [e]) →
      Invariant next before identity place (after ++ []) (events ++ [e]) :=
    fun kept => by rwa [List.append_nil]
  cases moves_of_step st with
  | elsewhere moved => exact ⟨h.elsewhere moved unopened, rfl, rfl⟩
  | collect _ there =>
    obtain rfl := Option.some.inj (h.there.symm.trans there)
    exact ⟨silent (h.collect _ _), rfl, rfl⟩
  | receive _ _ _ | shutdown _ => exact ⟨silent (h.still .decided), rfl, rfl⟩
  | lose waiting dropped => exact ⟨silent (h.lose waiting dropped), rfl, rfl⟩
  | close _ moved => exact ⟨h.close moved (decide_eq_true rfl) unopened .closing, rfl, rfl⟩
  | miss _ moved =>
    exact ⟨h.close moved (decide_eq_true rfl) unopened fun called =>
      .returned fun uncalled => absurd uncalled called, rfl, rfl⟩
  | finish closing _ => exact ⟨silent (h.finish closing), rfl, rfl⟩

theorem run (h : Invariant a before identity place after events)
    (ran : a.run later = some (final, more))
    (unopened : ∀ entry ∈ more, entry.isOpeningOf a.cookie = false) :
    Invariant final before identity place (after ++ more) (events ++ later) ∧
      final.cookie = a.cookie ∧ final.leader = a.leader := by
  induction later generalizing a after events more with
  | nil =>
    cases ran
    rw [List.append_nil, List.append_nil]
    exact ⟨h, rfl, rfl⟩
  | cons e later ih =>
    simp only [SharedAttempt.run] at ran
    split at ran
    · cases ran
    rename_i next first st
    obtain ⟨⟨last, rest⟩, goesOn, same⟩ := Option.map_eq_some_iff.1 ran
    cases same
    rw [List.forall_mem_append] at unopened
    obtain ⟨kept, cookie, leader⟩ := h.step st unopened.1
    have done := ih kept goesOn (cookie ▸ unopened.2)
    rw [cookie, leader] at done
    simpa using done

end Invariant

theorem Invariant.start {m opened : Manager α} {before : List Manager.Entry} {cookie : String}
    {n : Nat} {request : OpenRequest} {identity : Identity} (reached : Manager.Reached m before)
    (opens : m.step (.openSession cookie request) = some (opened, [.opened cookie n identity])) :
    Invariant { manager := opened, cookie, leader := n } before identity m.sessions.leaders.length
      [] [] := by
  refine ⟨reached.step opens, by simp, ?_, .opened⟩
  cases Manager.moves_of_step opens with
  | opened _ => simp [← (Manager.Invariant.of_reached reached).placed.numbered]

/-- What an attempt that has returned leaves behind. Its session is still in the register exactly if
its callback was dropped and nobody has closed the session; then another task has cancelled the
leader by itself. -/
theorem left_iff {m opened : Manager α} {before : List Manager.Entry} {cookie : String} {n : Nat}
    {request : OpenRequest} {identity : Identity} {result : Except SessionError Outcome}
    (reached : Manager.Reached m before)
    (opens : m.step (.openSession cookie request) = some (opened, [.opened cookie n identity]))
    (ran : SharedAttempt.run { manager := opened, cookie, leader := n } events =
      some (final, after))
    (unopened : ∀ entry ∈ after, entry.isOpeningOf cookie = false)
    (returned : final.stage = .returned result) :
    (final.manager.registry.find? cookie = some n ↔
      result = Ending.dropped.outcome ∧ closeCalls cookie after = []) ∧
    (final.manager.registry.find? cookie ≠ some n →
      final.manager.registry.find? cookie = none) ∧
    (final.manager.registry.find? cookie = some n →
      ∃ place, final.manager.places[n]? = some place ∧ Cancels events place) := by
  obtain ⟨h, rfl, rfl⟩ := (Invariant.start reached opens).run ran unopened
  simp only [List.nil_append] at h
  have standing := h.standing
  rw [returned] at standing
  cases standing with
  | returned left =>
    by_cases called : closeCalls final.cookie after = []
    · have registered := h.registered called
      obtain ⟨dropped, cancelled⟩ := left called
      exact ⟨iff_of_true registered ⟨dropped, called⟩, fun other => absurd registered other,
        fun _ => ⟨_, h.there, cancelled⟩⟩
    · have free := h.unregistered called
      rw [free]
      exact ⟨iff_of_false nofun fun both => called both.2, fun _ => rfl, nofun⟩

/-- Another task finds the session and cancels its leader while the helper runs. -/
def abandonedEvents : List (Event Nat) :=
  .collect 7 (fun _ => .ok ((), { process := 1, output := 2, diagnostics := 3 })) ::
    [.flag 0, .cancel 0, .terminate 0 1, .watch 1 .noticeCancel,
      .watch 1 (.helperEnds (.signaled 15)), .watch 1 .reap, .complete 0].map
        (.elsewhere ∘ .elsewhere) ++ [.receive]

theorem left_abandoned : ∃ (m opened : Manager Nat) (final : SharedAttempt Nat)
    (identity : Identity), Manager.Reached m [] ∧
      m.step (.openSession "a" {}) = some (opened, [.opened "a" 0 identity]) ∧
      SharedAttempt.run { manager := opened, cookie := "a", leader := 0 } abandonedEvents =
        some (final, []) ∧
      final.stage = .returned (.error (.internal "collection callback dropped")) ∧
      final.manager.registry.find? "a" = some 0 := by
  have reached : Manager.Reached ({ registry := { config := ⟨"h"⟩ } } : Manager Nat) [] :=
    .start ⟨"h"⟩
  obtain ⟨opened, identity, opens⟩ : ∃ opened identity,
      Manager.step ({ registry := { config := ⟨"h"⟩ } } : Manager Nat) (.openSession "a" {}) =
        some (opened, [.opened "a" 0 identity]) := ⟨_, _, rfl⟩
  obtain ⟨final, ran, returned⟩ : ∃ final,
      SharedAttempt.run { manager := opened, cookie := "a", leader := 0 } abandonedEvents =
        some (final, []) ∧ final.stage = .returned Ending.dropped.outcome := by
    cases opens
    exact ⟨_, rfl, rfl⟩
  have left := left_iff reached opens ran (by simp) returned
  exact ⟨_, opened, final, identity, reached, opens, ran, returned, left.1.2 ⟨rfl, rfl⟩⟩

end SharedAttempt

end LoginSession

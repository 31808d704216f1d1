import LoginSession.Proofs.SupervisedRegister

namespace LoginSession

namespace Manager

variable {α : Type} {m : Manager α} {record : List Entry} {e : Event α}

def Event.isCall : Event α → Bool
  | .elsewhere _ | .resume _ => false
  | .openSession _ _ | .closeSession _ | .get _ | .getOrError _ | .count | .cookies => true

theorem exists_answer (m : Manager α) (call : e.isCall = true) :
    ∃ next entry, m.step e = some (next, [entry]) := by
  cases e with
  | elsewhere _ | resume _ => cases call
  | openSession cookie request =>
    rw [step]
    split <;> exact ⟨_, _, rfl⟩
  | closeSession cookie =>
    rw [step]
    split <;> exact ⟨_, _, rfl⟩
  | get _ | getOrError _ | count | cookies => exact ⟨_, _, rfl⟩

theorem countP_returned_add (closings : List Closing) : closings.countP (·.stage = .returned) +
    closings.countP (·.stage ≠ .returned) = closings.length := by
  rw [closings.length_eq_countP_add_countP (·.stage = .returned)]
  simp

/-- What the use of a register comes to, whoever uses it and in whatever order. -/
structure Registrations (m : Manager α) (record : List Entry) : Prop where
  /-- Every answer is the one that the record before it calls for. -/
  fits : AllFit record
  answers : ∀ e : Event α, e.isCall = true → ∃ next entry, m.step e = some (next, [entry])
  ids : sessionIds record = (List.range (openings record)).map fun k => s!"Session{k + 1}"
  distinct : (sessionIds record).Nodup
  registered : ∀ cookie n, m.registry.find? cookie = some n ↔ Holds record cookie n
  balance : m.registry.size + removals record = openings record
  /-- A call that has taken a session out has returned or is still waiting. -/
  waiting : removals record = returns record + m.closings.countP (·.stage ≠ .returned)
  opens : ∀ cookie request, IsFree record cookie → ∃ next identity,
    m.step (.openSession cookie request) =
        some (next, [.opened cookie (openings record) identity]) ∧
      next.leader (openings record) = m.registry.leaderFor cookie request
  /-- Nothing at all changes when a cookie is taken. -/
  refuses : ∀ cookie n request, Holds record cookie n →
    m.step (.openSession cookie request) = some (m, [.refused cookie (.leaderAlreadyExists cookie)])
  closes : ∀ before cookie n identity after,
    record = before ++ .opened cookie n identity :: after →
    (∀ entry ∈ after, entry.isOpeningOf cookie = false) → ClosedOnce record after cookie n
  returns : ∀ cookie n k, .removed cookie n k ∈ record →
    .closed cookie k ∈ record ∨ m.CanReturn k cookie
  apart : ∀ e next added cookie, m.step e = some (next, added) → m.cookie? e ≠ some cookie →
    next.registry.find? cookie = m.registry.find? cookie
  leaders : ∀ e next added cookie n, m.step e = some (next, added) →
    (∀ other, e ≠ .elsewhere other) → m.registry.find? cookie = some n →
    next.leader n = m.leader n

/-- What holds of every use of a register. Whatever is done with sessions on a machine is such a
use. -/
theorem registrations (α : Type) :
    (∀ (m : Manager α) record, Reached m record → Registrations m record) ∧
    ∀ s : Supervisor α, s.Made → ∃ closings record, Reached (s.manager closings) record := by
  refine ⟨fun m record reached => ?_, fun s made => ?_⟩
  · have h := Invariant.of_reached reached
    refine { fits := h.fits
             answers := fun e => exists_answer m
             ids := h.fits.sessionIds_eq
             distinct := h.fits.nodup_sessionIds
             registered := h.books.found
             balance := h.books.balance
             waiting := ?_
             opens := fun cookie request free => ?_
             refuses := fun cookie n request taken => ?_
             closes := ?_
             returns := fun cookie n k removed => h.closed_or_canReturn removed
             apart := fun e next added cookie st => (moves_of_step st).find?
             leaders := fun e next added cookie n st => h.leader_step (moves_of_step st) }
    · rw [h.books.removals, h.books.returns, countP_returned_add]
    · have unknown := h.books.free_iff.2 free
      rw [step, Registry.register_of_free request unknown, ← h.books.opened]
      refine ⟨_, _, rfl, ?_⟩
      have new : (m.places ++ [m.sessions.leaders.length])[m.registry.opened]? =
          some m.sessions.leaders.length := by
        rw [← h.placed.numbered, List.getElem?_concat_length]
      have made := m.sessions.leader_newLeader (m.registry.leaderFor cookie request)
        m.sessions.leaders.length
      rw [if_pos rfl] at made
      rw [leader, new]
      exact made
    · rw [step, Registry.register_of_taken request ((h.books.found cookie n).2 taken)]
    · rintro before cookie n identity after rfl last
      exact h.fits.closedOnce last
  · obtain ⟨record, closings, reached⟩ := made.manages
    exact ⟨closings, record, reached⟩

/-- A session is closed while it has a helper running, and another is opened under its cookie before
the helper has ended. -/
def reopenedEvents : List (Event Nat) :=
  [.openSession "a" {}, .openSession "a" {}, .openSession "b" {},
    .elsewhere (.collect 0 7 fun _ => .ok ((), { process := 1, output := 2, diagnostics := 3 })),
    .closeSession "a", .closeSession "a", .resume 0, .openSession "a" {}, .resume 0, .get "a",
    .count, .elsewhere (.terminate 0 1), .elsewhere (.watch 1 .noticeCancel),
    .elsewhere (.watch 1 (.helperEnds (.signaled 15))), .elsewhere (.watch 1 .reap),
    .elsewhere (.proceed 0), .resume 0, .closeSession "a", .cookies]

def identityOf (id cookie : String) : Identity := { sessionId := some id, cookie := some cookie }

def reopenedRecord : List Entry :=
  [.opened "a" 0 (identityOf "Session1" "a"), .refused "a" (.leaderAlreadyExists "a"),
    .opened "b" 1 (identityOf "Session2" "b"), .removed "a" 0 0, .missed "a" (.leaderNotFound "a"),
    .opened "a" 2 (identityOf "Session3" "a"), .got "a" (some 2), .counted 2, .closed "a" 0,
    .removed "a" 2 1, .listed ["b"]]

theorem registrations_reopened : ∃ m : Manager Nat, Reached m reopenedRecord ∧
    m.registry.size = 1 ∧
    m.step (.openSession "b" {}) = some (m, [.refused "b" (.leaderAlreadyExists "b")]) ∧
    m.CanReturn 1 "a" ∧
    ∃ s : Supervisor Nat, s.registry.cookies = ["a"] ∧
      ∃ closings record, Reached (s.manager closings) record := by
  have told : (({ registry := { config := ⟨"h"⟩ } } : Manager Nat).run reopenedEvents).map (·.2) =
      some reopenedRecord := rfl
  obtain ⟨⟨m, record⟩, ran, rfl⟩ := Option.map_eq_some_iff.1 told
  have reached := (Reached.start ⟨"h"⟩).run ran
  have left := (registrations Nat).1 m _ reached
  have holds : Holds reopenedRecord "b" 1 :=
    ⟨reopenedRecord.take 2, identityOf "Session2" "b", reopenedRecord.drop 3, rfl, by decide⟩
  have size : m.registry.size + 2 = 3 := left.balance
  have returns : m.CanReturn 1 "a" := by
    refine (left.returns "a" 2 1 ?_).resolve_left ?_
    · simp [reopenedRecord]
    · simp [reopenedRecord]
  obtain ⟨s, n, opened, cookies⟩ : ∃ s n,
      (Supervisor.create (α := Nat) {} [] ⟨"h"⟩).openSession "a" {} = .ok (s, n) ∧
        s.registry.cookies = ["a"] := ⟨_, _, rfl, rfl⟩
  have made : s.Made := .openSession (.create {} [] ⟨"h"⟩) opened
  exact ⟨m, reached, by omega, left.refuses "b" 1 {} holds, returns, s, cookies,
    (registrations Nat).2 s made⟩

end Manager

end LoginSession

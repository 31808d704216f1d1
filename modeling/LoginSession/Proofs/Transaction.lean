import LoginSession.Proofs.Attempt
import LoginSession.Proofs.Termination

namespace LoginSession

namespace Attempt

variable {α : Type} {a next : Attempt α} {e : Event α} {o : Origin α}
  {record : List (Sessions.Entry α)} {events : List (Event α)}

/-- An attempt can come to its return, and without a shutdown. -/
def CanReturn (a : Attempt α) : Prop :=
  ∃ more final result, .shutdown ∉ more ∧ a.run more = some final ∧ final.stage = .returned result

theorem CanReturn.step (quiet : e ≠ .shutdown) (st : a.step e = some next) (h : next.CanReturn) :
    a.CanReturn := by
  obtain ⟨more, final, result, silent, ran, returned⟩ := h
  exact ⟨e :: more, final, result, by simp [silent, quiet.symm], run_trans (run_single st) ran,
    returned⟩

namespace Invariant

theorem canReturn_of_canReach (h : Invariant o a record events)
    (free : o.registry.find? o.cookie = none) {p : Sessions α → Prop}
    (reach : a.sessions.CanReach p)
    (later : ∀ {sessions record events}, Invariant o { a with sessions } record events →
      p sessions → CanReturn { a with sessions }) : a.CanReturn := by
  obtain ⟨operations, sessions, added, ran, unled, holds⟩ := reach
  have unused : ∀ e ∈ operations, e.leader? ≠ some a.leader := by
    intro e member
    simp [unled e member]
  have elsewhere := run_elsewhere ran unused
  obtain ⟨_, kept⟩ := h.run free elsewhere
  obtain ⟨more, final, result, silent, rest, returned⟩ := later kept holds
  exact ⟨operations.map .elsewhere ++ more, final, result, by simp [silent],
    run_trans elsewhere rest, returned⟩

theorem canReturn_of_cancelling (h : Invariant o a record events)
    (free : o.registry.find? o.cookie = none) {k : Nat} {result : Except SessionError Outcome}
    (cancelling : a.stage = .cancelling k result) : a.CanReturn := by
  obtain ⟨c, here, -⟩ := h.cancelling cancelling
  refine h.canReturn_of_canReach free (Sessions.canReach_isOver h.owned.reached here) ?_
  rintro sessions - - - ⟨c, there, ended⟩
  have st : Attempt.step { a with sessions } .finish =
      some { a with sessions, stage := .returned result } := by
    simp [Attempt.step, cancelling, there, ended]
  exact .step (by simp) st ⟨[], _, result, List.not_mem_nil, rfl, rfl⟩

theorem canReturn_of_flagged (h : Invariant o a record events)
    (free : o.registry.find? o.cookie = none) {result : Except SessionError Outcome}
    (flagged : a.stage = .flagged result) : a.CanReturn := by
  have known : a.leader < a.sessions.leaders.length := h.leader ▸ h.owned.known
  have st : a.step .cancel = some { a with
      sessions := a.sessions.cancel a.leader
      stage := .cancelling a.sessions.cancellations.length result } := by
    simp [Attempt.step, flagged, Sessions.step, known]
  obtain ⟨_, kept⟩ := h.step free st
  exact .step (by simp) st (kept.canReturn_of_cancelling free rfl)

theorem canReturn_of_removed (h : Invariant o a record events)
    (free : o.registry.find? o.cookie = none) {result : Except SessionError Outcome}
    (removed : a.stage = .removed result) : a.CanReturn := by
  have known : a.leader < a.sessions.leaders.length := h.leader ▸ h.owned.known
  have st : a.step .flag = some { a with
      sessions := a.sessions.setLeader a.leader { a.sessions.leader a.leader with cancelled := true }
      stage := .flagged result } := by
    simp [Attempt.step, removed, Sessions.step, known]
  obtain ⟨_, kept⟩ := h.step free st
  exact .step (by simp) st (kept.canReturn_of_flagged free rfl)

theorem canReturn_of_decided (h : Invariant o a record events)
    (free : o.registry.find? o.cookie = none) {result : Except SessionError Outcome}
    (decided : a.stage = .decided result) : a.CanReturn := by
  obtain ⟨register, -, -⟩ := h.decided decided
  have st : a.step .unregister = some { a with
      registry := o.closed, leader := o.leader, stage := .removed result } := by
    simp [Attempt.step, decided, h.cookie, register, o.close_opened free]
  obtain ⟨_, kept⟩ := h.step free st
  exact .step (by simp) st (kept.canReturn_of_removed free rfl)

theorem canReturn_of_waiting (h : Invariant o a record events)
    (free : o.registry.find? o.cookie = none) (waiting : a.stage = .waiting) : a.CanReturn := by
  obtain ⟨-, undrained, -, _, started⟩ := h.waiting waiting
  refine h.canReturn_of_canReach free (h.owned.canReach_ended started undrained) ?_
  intro sessions record events kept ended
  obtain ⟨-, undrained, -, _, started⟩ := kept.waiting waiting
  obtain ⟨report, _, called, -⟩ := (kept.owned.ending_cases started undrained).resolve_left ended
  have st : Attempt.step { a with sessions } .receive =
      some { a with sessions, stage := .decided (Ending.called report).outcome } := by
    simp [Attempt.step, waiting, h.collection, called, outcome_called]
  obtain ⟨_, decided⟩ := kept.step free st
  exact .step (by simp) st (decided.canReturn_of_decided free rfl)

theorem canReturn (h : Invariant o a record events) (free : o.registry.find? o.cookie = none) :
    a.CanReturn := by
  cases stage : a.stage with
  | waiting => exact h.canReturn_of_waiting free stage
  | decided result => exact h.canReturn_of_decided free stage
  | removed result => exact h.canReturn_of_removed free stage
  | flagged result => exact h.canReturn_of_flagged free stage
  | cancelling k result => exact h.canReturn_of_cancelling free stage
  | returned result => exact ⟨[], a, result, List.not_mem_nil, rfl, stage⟩

end Invariant

/-- All that an attempt leaves behind once it has returned. -/
structure Transaction (spawn : List String → Except SystemFault (Unit × Child))
    (before : Sessions α) (registry : Registry) (request : OpenRequest) (events : List (Event α))
    (final : Attempt α) (result : Except SessionError Outcome) : Prop where
  register : final.registry = { registry with opened := registry.opened + 1 }
  others : ∀ m < before.leaders.length,
    (∀ e, .elsewhere e ∈ events → ¬final.sessions.Touches m e) →
      final.sessions.leader m = before.leader m
  leader : final.leader = before.leaders.length ∧
    (final.sessions.leader final.leader).pending = [] ∧
    (final.sessions.leader final.leader).cancelled = true
  reaped : Job.CanStart spawn (registry.config.helperCommand request.uid request.pid) →
    final.sessions.Has Job.isFinished (before.jobs.length + 1)
  failed : (∃ e, result = .error e) ↔
    ¬Job.CanStart spawn (registry.config.helperCommand request.uid request.pid)
  failure : ∀ e, result = .error e →
    e = .spawn registry.config.helper (.message .other "helper could not be started")
  shutdown : result = .ok .cancelled ↔ .shutdown ∈ events
  /-- Without a shutdown the helper has been seen to its end, and how it ended decides. -/
  finished : Job.CanStart spawn (registry.config.helperCommand request.uid request.pid) →
    .shutdown ∉ events → ∃ text : String,
      (∀ sent delivered, (Delivery.start sent).run
          (helperEvents (before.jobs.length + 1) events) = some delivered →
        text = decodeLines (sent .output)) ∧
      ((.reapFault ∈ helperEvents (before.jobs.length + 1) events ∧ result = .ok .helperFailed) ∨
        (.reapFault ∉ helperEvents (before.jobs.length + 1) events ∧
          ∃ how, .helperEnds how ∈ helperEvents (before.jobs.length + 1) events ∧
            result = .ok (if how.isSuccess then
              .collected ((Overrides.ofList request.parameters).mergeInto text)
            else .helperFailed)))

/-- However an attempt comes to its return, it has given back what it took. -/
theorem transaction {before : Sessions α} {registry : Registry} {cookie : String}
    (reached : Sessions.Reached before record) (numbered : registry.opened = before.leaders.length)
    (free : registry.find? cookie = none)
    (spawn : List String → Except SystemFault (Unit × Child)) (context : α)
    (request : OpenRequest) :
    ∃ a, start spawn before registry cookie context request = .ok a ∧
      ∀ events final, a.run events = some final → final.CanReturn ∧
        ∀ result, final.stage = .returned result →
          Transaction spawn before registry request events final result := by
  let o : Origin α := ⟨before, registry, cookie, request⟩
  obtain ⟨a, added, begun, inv, same, started⟩ := Invariant.start (o := o) spawn context
    reached numbered free
  refine ⟨a, begun, fun events final ran => ?_⟩
  obtain ⟨more, kept⟩ := inv.run free ran
  refine ⟨kept.canReturn free, fun result returned => ?_⟩
  obtain ⟨register, decided, empty, cancelled, -⟩ := kept.returned returned
  rw [List.nil_append] at kept decided
  have accounted := Sessions.Accounted.of_reached kept.owned.reached
  have recorded : ∀ {x}, x ∈ added → x ∈ record ++ added ++ more := by simp +contextual
  have now := started.imp (And.imp_right recorded) (And.imp_right recorded)
  have refused := accounted.refused_iff now
  refine { register
           others := fun m known untouched => ?_
           leader := ⟨kept.leader, by rwa [kept.leader], by rwa [kept.leader]⟩
           reaped := fun can => kept.reaped returned (now.resolve_right (fun h => h.1 can)).2
           failed := (decided.error_iff accounted).trans refused
           failure := fun e same => (same ▸ decided).of_error
           shutdown := decided.cancelled_iff
           finished := fun can quiet => ?_ }
  · have old := inv.leader_run free ran (Nat.ne_of_lt known)
      (Nat.lt_trans known inv.owned.known) untouched
    rw [old, same m known]
  · cases decided with
    | refused now _ => exact absurd can (refused.1 now)
    | shutdown _ shut => exact absurd shut quiet
    | reported called _ =>
      obtain ⟨text, delivered, told⟩ := kept.finished called
      refine ⟨text, delivered, told.imp (And.imp_right ?_) (And.imp_right ?_)⟩
      · intro none
        rw [outcome_called, none]
      · rintro ⟨how, ends, parameters⟩
        refine ⟨how, ends, ?_⟩
        rw [outcome_called, parameters]
        cases how.isSuccess <;> rfl

def alwaysStarts : List String → Except SystemFault (Unit × Child) :=
  fun _ => .ok ((), { process := 1, output := 2, diagnostics := 3 })

def busy : Sessions Nat :=
  (({} : Sessions Nat).newLeader {}).1.started 0 7 { process := 1, output := 2, diagnostics := 3 }

def busyRegistry : Registry := { config := ⟨"h"⟩, entries := [("a", 0)], opened := 1 }

theorem reached_busy : Sessions.Reached busy [.started 0 1 7] := by
  have ran : ({} : Sessions Nat).run [.create {}, .collect 0 7 alwaysStarts] =
      some (busy, [.started 0 1 7]) := rfl
  exact Sessions.Reached.start.run ran

def localRequest : OpenRequest := { parameters := [⟨"session-type", .text "x"⟩] }

def localLine : List UInt8 :=
  [105, 115, 45, 108, 111, 99, 97, 108, 32, 61, 32, 116, 114, 117, 101, 10]

def localAttempt : Attempt Nat :=
  let made := (busy.newLeader (busyRegistry.leaderFor "b" localRequest)).1
  { sessions := (made.collect alwaysStarts 1 8).1
    registry := { busyRegistry with entries := [("a", 0), ("b", 1)], opened := 2 }
    cookie := "b"
    leader := 1
    collection := 1 }

/-- The helper ends before its line has been read, and the other helper writes meanwhile. -/
def localEvents : List (Event Nat) :=
  [.watch 2 (.helperEnds (.exited 0)), .watch 2 (.read .output localLine),
    .watch 1 (.read .output localLine), .watch 2 (.endOfStream .output),
    .watch 2 (.endOfStream .diagnostics), .watch 2 .reap, .complete 1, .call 1].map .elsewhere ++
    [.receive, .unregister, .flag, .cancel, .finish]

theorem transaction_local : ∃ final, localAttempt.run localEvents = some final ∧
    final.stage = .returned (.ok (.collected
      ⟨[⟨"is-local", .boolean true⟩, ⟨"session-type", .text "x"⟩]⟩)) ∧
    final.registry.entries = [("a", 0)] ∧ final.sessions.leader 0 = busy.leader 0 ∧
    (final.sessions.leader 1).pending = [] ∧ final.sessions.Has Job.isFinished 2 := by
  have told : (localAttempt.run localEvents).map (·.stage) = some (.returned (.ok (.collected
      ⟨[⟨"is-local", .boolean true⟩, ⟨"session-type", .text "x"⟩]⟩))) := rfl
  obtain ⟨final, ran, stage⟩ := Option.map_eq_some_iff.1 told
  have begins : start alwaysStarts busy busyRegistry "b" 8 localRequest = .ok localAttempt := rfl
  obtain ⟨a, begun, runs⟩ := transaction reached_busy
    (show busyRegistry.opened = busy.leaders.length from rfl)
    (show busyRegistry.find? "b" = none from rfl) alwaysStarts 8 localRequest
  obtain rfl : localAttempt = a := Except.ok.inj (begins.symm.trans begun)
  have left := (runs localEvents final ran).2 _ stage
  have can : Job.CanStart alwaysStarts (busyRegistry.config.helperCommand 0 0) := ⟨_, _, rfl, rfl⟩
  have empty := left.leader.2.1
  rw [left.leader.1] at empty
  refine ⟨final, ran, stage, congrArg _ left.register, left.others 0 (by decide) ?_, empty,
    left.reaped can⟩
  obtain ⟨c, here, leader⟩ := exists_collection_run ran
    (show localAttempt.sessions.collections[1]? = some _ from rfl)
  rintro e member (used | ⟨k, c', rfl, there, mine⟩)
  · have unled : ∀ e, .elsewhere e ∈ localEvents → e.leader? = none := by
      simp [localEvents, Sessions.Event.leader?]
    simp [unled e member] at used
  · obtain rfl : k = 1 := by simpa [localEvents] using member
    obtain rfl := Option.some.inj (here.symm.trans there)
    cases leader.symm.trans mine

end Attempt

end LoginSession

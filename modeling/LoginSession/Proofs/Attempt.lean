import LoginSession.Proofs.AttemptResult

namespace LoginSession

namespace Attempt

variable {α : Type} {a next : Attempt α} {e : Event α} {o : Origin α}
  {record added : List (Sessions.Entry α)} {events later : List (Event α)}

/-- What is so at each stage. Nothing is drained before the cancellation, and then only what the
cancellation waits for. -/
inductive Standing (o : Origin α) (sessions : Sessions α) (registry : Registry)
    (record : List (Sessions.Entry α)) (events : List (Event α)) : Stage → Prop where
  | waiting {context : α} (register : registry = o.opened)
    (undrained : ∀ m, .drained m o.job ∉ record)
    (started : .started o.leader o.job context ∈ record) (quiet : .shutdown ∉ events) :
    Standing o sessions registry record events .waiting
  | decided {result : Except SessionError Outcome} (register : registry = o.opened)
    (undrained : ∀ m, .drained m o.job ∉ record) (decided : Decided o record events result) :
    Standing o sessions registry record events (.decided result)
  | removed {result : Except SessionError Outcome} (register : registry = o.closed)
    (undrained : ∀ m, .drained m o.job ∉ record) (decided : Decided o record events result) :
    Standing o sessions registry record events (.removed result)
  | flagged {result : Except SessionError Outcome} (register : registry = o.closed)
    (undrained : ∀ m, .drained m o.job ∉ record) (decided : Decided o record events result)
    (cancelled : (sessions.leader o.leader).cancelled = true) :
    Standing o sessions registry record events (.flagged result)
  | cancelling {result : Except SessionError Outcome} {k : Nat} {c : Cancellation}
    (register : registry = o.closed) (here : sessions.cancellations[k]? = some c)
    (drained : ∀ m, .drained m o.job ∈ record → o.job ∈ c.drained)
    (decided : Decided o record events result)
    (cancelled : (sessions.leader o.leader).cancelled = true)
    (empty : (sessions.leader o.leader).pending = []) :
    Standing o sessions registry record events (.cancelling k result)
  | returned {result : Except SessionError Outcome} (register : registry = o.closed)
    (ended : ∀ m, .drained m o.job ∈ record → sessions.Has Job.isFinished o.job)
    (decided : Decided o record events result)
    (cancelled : (sessions.leader o.leader).cancelled = true)
    (empty : (sessions.leader o.leader).pending = []) :
    Standing o sessions registry record events (.returned result)

structure Invariant (o : Origin α) (a : Attempt α) (record : List (Sessions.Entry α))
    (events : List (Event α)) : Prop where
  owned : Sessions.Owned a.sessions record o.leader o.job o.collection
    (.ofList o.request.parameters) (helperEvents o.job events)
  leader : a.leader = o.leader
  collection : a.collection = o.collection
  cookie : a.cookie = o.cookie
  standing : Standing o a.sessions a.registry record events a.stage

namespace Invariant

theorem elsewhere (h : Invariant o a record events) {e : Sessions.Event α} {sessions : Sessions α}
    (unused : e.leader? ≠ some o.leader) (st : a.sessions.step e = some (sessions, added)) :
    Invariant o { a with sessions } (record ++ added) (events ++ [.elsewhere e]) := by
  have moves := Sessions.moves_of_step st
  have known := h.owned.known
  have notDrained : ∀ m, .drained m o.job ∉ added := by
    intro m drained
    obtain ⟨rfl, -⟩ := h.owned.drained_of_mem_added st drained
    exact unused rfl
  have drainedBefore : ∀ {m}, .drained m o.job ∈ record ++ added → .drained m o.job ∈ record :=
    fun drained => (List.mem_append.1 drained).resolve_right (notDrained _)
  have undrained : (∀ m, .drained m o.job ∉ record) → ∀ m, .drained m o.job ∉ record ++ added :=
    fun before m drained => before m (drainedBefore drained)
  have kept : ∀ {result}, Decided o record events result →
      Decided o (record ++ added) (events ++ [.elsewhere e]) result :=
    fun decided => decided.mono (List.subset_append_left _ _) (by simp)
  have cancelled : (a.sessions.leader o.leader).cancelled = true →
      (sessions.leader o.leader).cancelled = true := (moves.cancelled known unused).trans
  have empty : (a.sessions.leader o.leader).pending = [] →
      (sessions.leader o.leader).pending = [] :=
    fun before => List.subset_nil.1 (before ▸ moves.pending_subset known unused)
  -- the stage is the same; what it says of the record and of the leader outlasts the event
  have owned := h.owned.step st (.inl unused)
  rw [← helperEvents_elsewhere, ← helperEvents_append] at owned
  refine ⟨owned, h.leader, h.collection, h.cookie, ?_⟩
  have standing := h.standing
  dsimp only
  generalize a.stage = stage at standing ⊢
  cases standing with
  | waiting register before started silent =>
    exact .waiting register (undrained before) (List.mem_append_left _ started) (by simp [silent])
  | decided register before decided =>
    exact .decided register (undrained before) (kept decided)
  | removed register before decided =>
    exact .removed register (undrained before) (kept decided)
  | flagged register before decided flagged =>
    exact .flagged register (undrained before) (kept decided) (cancelled flagged)
  | cancelling register here drained decided flagged nothing =>
    obtain ⟨c', here', same⟩ := moves.cancellation here
    refine .cancelling register here' (fun m now => ?_) (kept decided) (cancelled flagged)
      (empty nothing)
    rw [(Prod.mk.inj same).2]
    exact drained m (drainedBefore now)
  | returned register ended decided flagged nothing =>
    exact .returned register
      (fun m now => moves.isFinished h.owned.old (ended m (drainedBefore now))) (kept decided)
      (cancelled flagged) (empty nothing)

theorem still (h : Invariant o a record events) (sessions : next.sessions = a.sessions)
    (leader : next.leader = o.leader) (collection : next.collection = a.collection)
    (cookie : next.cookie = a.cookie) (own : helperEvents o.job [e] = [])
    (standing : Standing o a.sessions next.registry record (events ++ [e]) next.stage) :
    Invariant o next record (events ++ [e]) := by
  refine ⟨?_, leader, collection.trans h.collection, cookie.trans h.cookie, sessions ▸ standing⟩
  rw [helperEvents_append, own, List.append_nil, sessions]
  exact h.owned

theorem waiting (h : Invariant o a record events) (waiting : a.stage = .waiting) :
    a.registry = o.opened ∧ (∀ m, .drained m o.job ∉ record) ∧ .shutdown ∉ events ∧
      ∃ context, .started o.leader o.job context ∈ record := by
  have standing := h.standing
  rw [waiting] at standing
  cases standing with
  | waiting register undrained started quiet => exact ⟨register, undrained, quiet, _, started⟩

theorem decided (h : Invariant o a record events) {result : Except SessionError Outcome}
    (decided : a.stage = .decided result) : a.registry = o.opened ∧
      (∀ m, .drained m o.job ∉ record) ∧ Decided o record events result := by
  have standing := h.standing
  rw [decided] at standing
  cases standing with
  | decided register undrained decided => exact ⟨register, undrained, decided⟩

theorem cancelling (h : Invariant o a record events) {result : Except SessionError Outcome}
    {k : Nat} (cancelling : a.stage = .cancelling k result) :
    ∃ c, a.sessions.cancellations[k]? = some c ∧
      (∀ m, .drained m o.job ∈ record → o.job ∈ c.drained) ∧
      a.registry = o.closed ∧ Decided o record events result ∧
      (a.sessions.leader o.leader).cancelled = true ∧
      (a.sessions.leader o.leader).pending = [] := by
  have standing := h.standing
  rw [cancelling] at standing
  cases standing with
  | cancelling register here drained decided cancelled empty =>
    exact ⟨_, here, drained, register, decided, cancelled, empty⟩

theorem receive (h : Invariant o a record events) (moves : a.Moves .receive next) :
    Invariant o next record (events ++ [.receive]) := by
  cases moves with
  | receive waits ended amounts =>
    obtain ⟨register, undrained, silent, _, started⟩ := h.waiting waits
    rw [h.collection] at ended amounts
    obtain ⟨report, _, called, told⟩ :=
      (h.owned.ending_cases started undrained).resolve_left ended
    have decided := Decided.reported told (show .shutdown ∉ events ++ [.receive] by simp [silent])
    rw [← called, amounts] at decided
    exact h.still rfl h.leader rfl rfl rfl (.decided register undrained decided)
  | lose waits amounts =>
    -- a callback is dropped only by a cancellation
    obtain ⟨-, undrained, -, _, started⟩ := h.waiting waits
    rw [h.collection] at amounts
    rcases h.owned.ending_cases started undrained with waiting | ⟨report, _, called, -⟩
    · rw [waiting] at amounts
      cases amounts
    · rw [called] at amounts
      obtain ⟨parameters, identity, cancelled⟩ := report
      cases parameters <;> cases amounts

theorem shutdown (h : Invariant o a record events) (waits : a.stage = .waiting) :
    Invariant o { a with stage := .decided (.ok .cancelled) } record (events ++ [.shutdown]) := by
  obtain ⟨register, undrained, -, _, started⟩ := h.waiting waits
  exact h.still rfl h.leader rfl rfl rfl
    (.decided register undrained (.shutdown started (by simp)))

theorem unregister (h : Invariant o a record events) (free : o.registry.find? o.cookie = none)
    (moves : a.Moves .unregister next) :
    Invariant o next record (events ++ [.unregister]) := by
  cases moves with
  | unregister stage closed =>
    obtain ⟨register, undrained, decided⟩ := h.decided stage
    rw [h.cookie, register, o.close_opened free, Except.ok.injEq, Prod.mk.injEq] at closed
    obtain ⟨rfl, rfl⟩ := closed
    exact h.still rfl rfl rfl rfl rfl
      (.removed rfl undrained (decided.mono (List.Subset.refl _) (by simp)))
  | unknown stage closed =>
    -- the session is in the register until the attempt itself takes it out
    obtain ⟨register, -, -⟩ := h.decided stage
    rw [h.cookie, register, o.close_opened free] at closed
    cases closed

theorem giveUp (h : Invariant o a record events) {operation : Sessions.Event α}
    {sessions : Sessions α} (st : a.sessions.step operation = some (sessions, added))
    (gives : operation = .flag o.leader ∨ operation = .cancel o.leader) {stage : Stage}
    (own : helperEvents o.job [e] = [])
    (standing : Standing o sessions a.registry (record ++ added) (events ++ [e]) stage) :
    Invariant o { a with sessions, stage } (record ++ added) (events ++ [e]) := by
  have unwatched : operation.watched? o.job = none := by
    rcases gives with rfl | rfl <;> rfl
  have owned := h.owned.step st (.inr gives)
  rw [unwatched, Option.toList_none, List.append_nil] at owned
  refine ⟨?_, h.leader, h.collection, h.cookie, standing⟩
  rw [helperEvents_append, own, List.append_nil]
  exact owned

theorem flag (h : Invariant o a record events) (moves : a.Moves .flag next) :
    Invariant o next record (events ++ [.flag]) := by
  have standing := h.standing
  cases moves with
  | flag removed st =>
    rw [removed] at standing
    rw [h.leader] at st
    cases standing with
    | removed register undrained decided =>
      cases Sessions.moves_of_step st with
      | flag known =>
        have kept := decided.mono (List.subset_append_left record [])
          (show .shutdown ∈ events ++ [.flag] ↔ _ by simp)
        have given := h.giveUp (e := .flag) st (.inl rfl) rfl
          (.flagged register (by simpa using undrained) kept (by
            rw [Sessions.leader_setLeader known, if_pos rfl]))
        rwa [List.append_nil] at given

theorem cancel (h : Invariant o a record events) (moves : a.Moves .cancel next) :
    ∃ added, Invariant o next (record ++ added) (events ++ [.cancel]) := by
  have standing := h.standing
  cases moves with
  | @cancel result sessions added flagged st =>
    rw [flagged] at standing
    rw [h.leader] at st
    refine ⟨added, h.giveUp st (.inr rfl) rfl ?_⟩
    cases standing with
    | flagged register undrained decided cancelled =>
      have kept := decided.mono (List.subset_append_left record added)
        (show .shutdown ∈ events ++ [.cancel] ↔ _ by simp)
      obtain ⟨rfl, cancellations, leader⟩ := Sessions.cancel_step st
      have here := congrArg (·[a.sessions.cancellations.length]?) cancellations
      simp only [List.getElem?_concat_length] at here
      refine .cancelling register here (fun m drained => ?_) kept ?_ ?_
      · -- nothing was drained before, so the job is among those that are drained now
        have now := (List.mem_append.1 drained).resolve_left (undrained m)
        obtain ⟨i, inside, same⟩ := List.mem_map.1 now
        rw [← (Sessions.Entry.drained.inj same).2]
        exact inside
      · rw [leader, if_pos rfl]
      · rw [leader, if_pos rfl]

theorem finish (h : Invariant o a record events) (moves : a.Moves .finish next) :
    Invariant o next record (events ++ [.finish]) := by
  cases moves with
  | finish stage here done =>
    obtain ⟨c, here', drained, register, decided, cancelled, empty⟩ := h.cancelling stage
    obtain rfl := Option.some.inj (here.symm.trans here')
    have managed := Sessions.Managed.of_reached h.owned.reached
    have ended := managed.isFinished_of_isOver (List.mem_of_getElem? here) done
    exact h.still rfl h.leader rfl rfl rfl (.returned register
      (fun m now => ended _ (drained m now)) (decided.mono (List.Subset.refl _) (by simp))
      cancelled empty)

theorem step (h : Invariant o a record events) (free : o.registry.find? o.cookie = none)
    (st : a.step e = some next) : ∃ added, Invariant o next (record ++ added) (events ++ [e]) := by
  have silent : Invariant o next record (events ++ [e]) →
      ∃ added, Invariant o next (record ++ added) (events ++ [e]) :=
    fun kept => ⟨[], by rwa [List.append_nil]⟩
  have moves := moves_of_step st
  cases e with
  | elsewhere e =>
    cases moves with
    | elsewhere unused moved => exact ⟨_, h.elsewhere (h.leader ▸ unused) moved⟩
  | shutdown =>
    cases moves with
    | shutdown waiting => exact silent (h.shutdown waiting)
  | receive => exact silent (h.receive moves)
  | unregister => exact silent (h.unregister free moves)
  | flag => exact silent (h.flag moves)
  | cancel => exact h.cancel moves
  | finish => exact silent (h.finish moves)

theorem run {final : Attempt α} (h : Invariant o a record events)
    (free : o.registry.find? o.cookie = none) (ran : a.run later = some final) :
    ∃ added, Invariant o final (record ++ added) (events ++ later) := by
  induction later generalizing a record events with
  | nil =>
    cases ran
    exact ⟨[], by rwa [List.append_nil, List.append_nil]⟩
  | cons e later ih =>
    obtain ⟨next, st, rest⟩ := Option.bind_eq_some_iff.1 ran
    obtain ⟨first, kept⟩ := h.step free st
    obtain ⟨more, done⟩ := ih kept rest
    exact ⟨first ++ more, by simpa using done⟩

theorem start (spawn : List String → Except SystemFault (Unit × Child)) (context : α)
    (reached : Sessions.Reached o.sessions record) (numbered : o.registry.opened = o.leader)
    (free : o.registry.find? o.cookie = none) :
    ∃ a added, Attempt.start spawn o.sessions o.registry o.cookie context o.request = .ok a ∧
      Invariant o a (record ++ added) [] ∧
      (∀ m < o.leader, a.sessions.leader m = o.sessions.leader m) ∧
      ((Job.CanStart spawn (o.registry.config.helperCommand o.request.uid o.request.pid) ∧
          .started o.leader o.job context ∈ added) ∨
        (¬Job.CanStart spawn (o.registry.config.helperCommand o.request.uid o.request.pid) ∧
          .refused o.leader o.job ∈ added)) := by
  have made := o.reached_made reached
  have known : o.leader < o.made.leaders.length := by
    simp [Origin.made, Sessions.newLeader, Origin.leader]
  have empty : (o.made.leader o.leader).pending = [] := by
    rw [o.leader_made]
    rfl
  have overrides : (o.made.leader o.leader).overrides = .ofList o.request.parameters := by
    rw [o.leader_made]
    rfl
  have command : (o.made.leader o.leader).command =
      o.registry.config.helperCommand o.request.uid o.request.pid := by
    rw [o.leader_made]
    rfl
  have step : o.made.step (.collect o.leader context spawn) = _ := if_pos known
  have undrained : ∀ m, .drained m o.job ∉ record :=
    fun m => (Sessions.Accounted.of_reached made).not_mem_of_job rfl
  rw [o.start_eq free numbered, ← command]
  rcases Sessions.collect_cases o.made o.leader context spawn with ⟨can, child, collected⟩ |
    ⟨cannot, collected⟩
  · rw [collected] at step ⊢
    have owned := Sessions.Owned.of_started made known empty (made.step step)
    rw [overrides] at owned
    refine ⟨_, _, rfl, ⟨owned, rfl, rfl, rfl, ?_⟩, fun m old => ?_,
      .inl ⟨can, List.mem_singleton_self _⟩⟩
    · exact .waiting rfl (by simpa using undrained)
        (List.mem_append_right _ (List.mem_singleton_self _)) List.not_mem_nil
    · dsimp only
      rw [Sessions.leader_started known, if_neg (Nat.ne_of_lt old), o.leader_made_of_lt old]
  · rw [collected] at step ⊢
    have owned := Sessions.Owned.of_refused made known empty (made.step step)
    rw [overrides] at owned
    refine ⟨_, _, rfl, ⟨owned, rfl, rfl, rfl, ?_⟩, fun m => o.leader_made_of_lt,
      .inr ⟨cannot, List.mem_singleton_self _⟩⟩
    exact .decided rfl (by simpa using undrained)
      (.refused (List.mem_append_right _ (List.mem_singleton_self _)) List.not_mem_nil)

theorem leader_run {final : Attempt α} {m : Nat} (h : Invariant o a record events)
    (free : o.registry.find? o.cookie = none) (ran : a.run later = some final)
    (other : m ≠ o.leader) (known : m < a.sessions.leaders.length)
    (untouched : ∀ e, .elsewhere e ∈ later → ¬final.sessions.Touches m e) :
    final.sessions.leader m = a.sessions.leader m := by
  induction later generalizing a record events with
  | nil =>
    cases ran
    rfl
  | cons e later ih =>
    obtain ⟨next, st, rest⟩ := Option.bind_eq_some_iff.1 ran
    obtain ⟨_, kept⟩ := h.step free st
    have rests := fun known => ih kept rest known fun e member => untouched e (.tail _ member)
    rcases (moves_of_step st).sessions with same | ⟨operation, added, moved, whose⟩
    · rw [same] at rests
      exact rests known
    · have moves := Sessions.moves_of_step moved
      rw [rests (Nat.lt_of_lt_of_le known moves.length_leaders_le)]
      have unused : operation.leader? ≠ some m := by
        rcases whose with rfl | rfl | rfl
        · exact fun used => untouched operation (.head _) (.inl used)
        · exact fun same => other (Option.some.inj (same.symm.trans (congrArg some h.leader)))
        · exact fun same => other (Option.some.inj (same.symm.trans (congrArg some h.leader)))
      refine (moves.leader known unused).resolve_right ?_
      rintro ⟨k, c, rfl, here, mine, -⟩
      rcases whose with rfl | same | same
      · obtain ⟨c', there, leader⟩ := exists_collection_run ran here
        exact untouched _ (.head _) (.inr ⟨k, c', rfl, there, leader.trans mine⟩)
      · cases same
      · cases same

variable {result : Except SessionError Outcome}

theorem returned (h : Invariant o a record events) (returned : a.stage = .returned result) :
    a.registry = o.closed ∧ Decided o record events result ∧
      (a.sessions.leader o.leader).pending = [] ∧
      (a.sessions.leader o.leader).cancelled = true ∧
      ∀ m, .drained m o.job ∈ record → a.sessions.Has Job.isFinished o.job := by
  have standing := h.standing
  rw [returned] at standing
  cases standing with
  | returned register ended decided cancelled empty =>
    exact ⟨register, decided, empty, cancelled, ended⟩

theorem reaped (h : Invariant o a record events) (returned : a.stage = .returned result)
    {context : α} (started : .started o.leader o.job context ∈ record) :
    a.sessions.Has Job.isFinished o.job := by
  obtain ⟨-, -, empty, -, ended⟩ := h.returned returned
  have accounted := Sessions.Accounted.of_reached h.owned.reached
  by_contra running
  have inside := (accounted.mem_pending_iff o.leader o.job).2 ⟨⟨context, started⟩,
    fun m removed => running (h.owned.removed m removed),
    fun m drained => running (ended m drained)⟩
  rw [empty] at inside
  cases inside

theorem finished (h : Invariant o a record events) {report : Report} {context : α}
    (called : .called o.leader o.job report context ∈ record) : ∃ text : String,
      (∀ sent delivered, (Delivery.start sent).run (helperEvents o.job events) = some delivered →
        text = decodeLines (sent .output)) ∧
      ((.reapFault ∈ helperEvents o.job events ∧ report.parameters = none) ∨
        (.reapFault ∉ helperEvents o.job events ∧
          ∃ how, .helperEnds how ∈ helperEvents o.job events ∧
            report.parameters = if how.isSuccess then
              some ((Overrides.ofList o.request.parameters).mergeInto text) else none)) := by
  have accounted := Sessions.Accounted.of_reached h.owned.reached
  obtain ⟨job, r, followed⟩ := h.owned.followed (accounted.of_called called).1
    (accounted.undrained_of_called called)
  obtain ⟨done, parameters⟩ := followed.told called
  obtain ⟨closed, ended⟩ := Watch.completed_of_unasked followed.unasked followed.ran done
  refine ⟨r.watch.output.text, fun sent delivered ran => ?_, ?_⟩
  · obtain same := Option.some.inj (followed.ran.symm.trans (Delivery.watch_run ran))
    have captured := (Delivery.sound_start sent).run ran .output
    rw [← same] at captured
    exact (captured.of_closed (Watch.allClosed_iff.1 closed .output)).2
  · rw [parameters]
    refine ended.imp (And.imp_right fun completion => ?_) (And.imp_right ?_)
    · rw [completion]
      rfl
    · rintro ⟨how, ends, completion⟩
      refine ⟨how, ends, ?_⟩
      rw [completion, Leader.result, Leader.merge, h.owned.overridden]

end Invariant

end Attempt

end LoginSession

import LoginSession.Job.Watch

namespace LoginSession

theorem Stream.eq_or_eq_other (s t : Stream) : t = s ∨ t = s.other := by
  cases s <;> cases t <;> simp [Stream.other]

theorem Stream.other_ne (s : Stream) : s.other ≠ s := by
  cases s <;> simp [Stream.other]

namespace Watch

/-- What each event does to a watcher, one constructor for each. A watcher that is done delivers
what it has delivered before. -/
inductive Moves (w : Watch) : Event → Watch → Prop where
  | read {s : Stream} {bytes : List UInt8} (reading : w.isReading s = true) :
    Moves w (.read s bytes) (w.feed s bytes)
  | endOfStream {s : Stream} (reading : w.isReading s = true) :
    Moves w (.endOfStream s) (w.endRead s (.bytes (w.capture s).taken))
  | readFault {s : Stream} (reading : w.isReading s = true) :
    Moves w (.readFault s) (w.endRead s .fault)
  | helperEnds {how : Exit} (running : w.ended = none) :
    Moves w (.helperEnds how) { w with ended := some how }
  | requestCancel : Moves w .requestCancel { w with cancelRequested := true }
  | noticeCancel (watching : w.stage = .watching) (requested : w.cancelRequested = true) :
    Moves w .noticeCancel { w with stage := .terminating }
  | complete {how : Exit} (watching : w.stage = .watching) (closed : w.allClosed = true)
    (ended : w.ended = some how) : Moves w .reap { w with stage := .completed (some how) }
  | lose (watching : w.stage = .watching) (closed : w.allClosed = true) :
    Moves w .reapFault { w with stage := .completed none }
  | reapTerminated {how : Exit} (terminating : w.stage = .terminating) (ended : w.ended = some how) :
    Moves w .reap { w with stage := .cancelled }
  | loseTerminated (terminating : w.stage = .terminating) :
    Moves w .reapFault { w with stage := .cancelled }

variable {w next : Watch} {e : Event}

theorem reaped_cases {how : Option Exit} (h : w.reaped how = some next) :
    (w.stage = .watching ∧ w.allClosed = true ∧ next = { w with stage := .completed how }) ∨
      (w.stage = .terminating ∧ next = { w with stage := .cancelled }) := by
  unfold reaped at h
  split at h
  · rename_i watching
    split at h
    · rename_i closed
      exact .inl ⟨watching, closed, (Option.some.inj h).symm⟩
    · cases h
  · rename_i terminating
    exact .inr ⟨terminating, (Option.some.inj h).symm⟩
  · cases h
  · cases h

theorem moves_of_step (h : w.step e = some next) : w.Moves e next := by
  cases e with
  | read s bytes =>
    simp only [step, Option.ite_none_right_eq_some, Option.some.injEq] at h
    obtain ⟨reading, rfl⟩ := h
    exact .read reading
  | endOfStream s =>
    simp only [step, Option.ite_none_right_eq_some, Option.some.injEq] at h
    obtain ⟨reading, rfl⟩ := h
    exact .endOfStream reading
  | readFault s =>
    simp only [step, Option.ite_none_right_eq_some, Option.some.injEq] at h
    obtain ⟨reading, rfl⟩ := h
    exact .readFault reading
  | helperEnds how =>
    simp only [step, Option.ite_none_right_eq_some, Option.some.injEq] at h
    obtain ⟨running, rfl⟩ := h
    exact .helperEnds running
  | requestCancel =>
    cases h
    exact .requestCancel
  | noticeCancel =>
    simp only [step, Option.ite_none_right_eq_some, Option.some.injEq] at h
    obtain ⟨⟨watching, requested⟩, rfl⟩ := h
    exact .noticeCancel watching requested
  | reap =>
    obtain ⟨how, ended, reaped⟩ := Option.bind_eq_some_iff.1 h
    rcases reaped_cases reaped with ⟨watching, closed, rfl⟩ | ⟨terminating, rfl⟩
    · exact .complete watching closed ended
    · exact .reapTerminated terminating ended
  | reapFault =>
    rcases reaped_cases h with ⟨watching, closed, rfl⟩ | ⟨terminating, rfl⟩
    · exact .lose watching closed
    · exact .loseTerminated terminating

theorem step_of_moves (h : w.Moves e next) : w.step e = some next := by
  cases h with
  | read reading => simp [step, reading]
  | endOfStream reading => simp [step, reading]
  | readFault reading => simp [step, reading]
  | helperEnds running => simp [step, running]
  | requestCancel => rfl
  | noticeCancel watching requested => simp [step, watching, requested]
  | complete watching closed ended => simp [step, reaped, watching, closed, ended]
  | lose watching closed => simp [step, reaped, watching, closed]
  | reapTerminated terminating ended => simp [step, reaped, terminating, ended]
  | loseTerminated terminating => simp [step, reaped, terminating]

@[simp] theorem stage_giveUp (w : Watch) (s : Stream) : (w.giveUp s).stage = w.stage :=
  stage_setCapture w _ s

@[simp] theorem stage_endRead (w : Watch) (s : Stream) (r : ReadResult) :
    (w.endRead s r).stage = w.stage := by
  simp [endRead]

@[simp] theorem stage_feed (w : Watch) (s : Stream) (bytes : List UInt8) :
    (w.feed s bytes).stage = w.stage := by
  unfold feed
  dsimp only
  split <;> simp

@[simp] theorem ended_giveUp (w : Watch) (s : Stream) : (w.giveUp s).ended = w.ended :=
  ended_setCapture w _ s

@[simp] theorem ended_endRead (w : Watch) (s : Stream) (r : ReadResult) :
    (w.endRead s r).ended = w.ended := by
  simp [endRead]

@[simp] theorem ended_feed (w : Watch) (s : Stream) (bytes : List UInt8) :
    (w.feed s bytes).ended = w.ended := by
  unfold feed
  dsimp only
  split <;> simp

theorem capture_giveUp_other (w : Watch) (s : Stream) :
    (w.giveUp s.other).capture s = w.capture s := by
  cases s <;> rfl

theorem capture_endRead (w : Watch) (s : Stream) (r : ReadResult) :
    (w.endRead s r).capture s = (w.capture s).endRead r := by
  rw [endRead, capture_giveUp_other, capture_setCapture]

theorem capture_endRead_other (w : Watch) (s : Stream) (r : ReadResult) :
    (w.endRead s r).capture s.other = (w.capture s.other).giveUp := by
  rw [endRead, giveUp, capture_setCapture, capture_setCapture_other]

@[simp] theorem isOpen_endRead_other (w : Watch) (s : Stream) (r : ReadResult) :
    ((w.endRead s r).capture s.other).isOpen = (w.capture s.other).isOpen := by
  rw [capture_endRead_other]
  rfl

theorem capture_feed (w : Watch) (s : Stream) (bytes : List UInt8) :
    (w.feed s bytes).capture s = (w.capture s).feed bytes := by
  unfold feed
  dsimp only
  split
  · rw [capture_giveUp_other, capture_setCapture]
  · rw [capture_setCapture]

theorem capture_feed_other (w : Watch) (s : Stream) (bytes : List UInt8) :
    (w.feed s bytes).capture s.other = w.capture s.other ∨
      (w.feed s bytes).capture s.other = (w.capture s.other).giveUp := by
  unfold feed
  dsimp only
  split
  · rw [giveUp, capture_setCapture, capture_setCapture_other]
    exact .inr rfl
  · rw [capture_setCapture_other]
    exact .inl rfl

@[simp] theorem isOpen_feed_same (w : Watch) (s : Stream) (bytes : List UInt8) :
    ((w.feed s bytes).capture s).isOpen = (w.capture s).isOpen := by
  rw [capture_feed, Capture.isOpen_feed]

@[simp] theorem isOpen_feed_other (w : Watch) (s : Stream) (bytes : List UInt8) :
    ((w.feed s bytes).capture s.other).isOpen = (w.capture s.other).isOpen := by
  rcases capture_feed_other w s bytes with kept | givenUp
  · rw [kept]
  · rw [givenUp]
    rfl

theorem allClosed_iff : w.allClosed = true ↔ ∀ s, (w.capture s).isOpen = false := by
  constructor
  · intro closed s
    simp only [allClosed, Bool.and_eq_true, Bool.not_eq_eq_eq_not, Bool.not_true] at closed
    cases s with
    | output => exact closed.1
    | diagnostics => exact closed.2
  · intro closed
    have output : w.output.isOpen = false := closed .output
    have diagnostics : w.diagnostics.isOpen = false := closed .diagnostics
    rw [allClosed, output, diagnostics]
    rfl

theorem isReading_iff {s : Stream} :
    w.isReading s = true ↔ w.stage = .watching ∧ (w.capture s).isOpen = true := by
  simp [isReading]

theorem stage_of_isReading {s : Stream} (h : w.isReading s = true) : w.stage = .watching :=
  (isReading_iff.1 h).1

theorem stage_ne_watching_of_isFinished (h : w.isFinished = true) : w.stage ≠ .watching := by
  intro same
  simp [isFinished, same] at h

theorem frame_of_isFinished (done : w.isFinished = true) (h : w.step e = some next) :
    next.stage = w.stage ∧ next.output = w.output ∧ next.diagnostics = w.diagnostics := by
  have notWatching := stage_ne_watching_of_isFinished done
  cases moves_of_step h with
  | read reading => exact absurd (stage_of_isReading reading) notWatching
  | endOfStream reading => exact absurd (stage_of_isReading reading) notWatching
  | readFault reading => exact absurd (stage_of_isReading reading) notWatching
  | helperEnds _ => exact ⟨rfl, rfl, rfl⟩
  | requestCancel => exact ⟨rfl, rfl, rfl⟩
  | noticeCancel watching _ => exact absurd watching notWatching
  | complete watching _ _ => exact absurd watching notWatching
  | lose watching _ => exact absurd watching notWatching
  | reapTerminated terminating _ => simp [isFinished, terminating] at done
  | loseTerminated terminating => simp [isFinished, terminating] at done

theorem capture_step_of_isFinished (done : w.isFinished = true) (h : w.step e = some next)
    (s : Stream) : next.capture s = w.capture s := by
  obtain ⟨-, output, diagnostics⟩ := frame_of_isFinished done h
  cases s with
  | output => exact output
  | diagnostics => exact diagnostics

theorem ended_step (h : w.step e = some next) :
    next.ended = w.ended ∨ ∃ how, e = .helperEnds how ∧ w.ended = none ∧ next.ended = some how := by
  cases moves_of_step h with
  | read _ => exact .inl (ended_feed w _ _)
  | endOfStream _ | readFault _ => exact .inl (ended_endRead w _ _)
  | helperEnds running => exact .inr ⟨_, rfl, running, rfl⟩
  | requestCancel | noticeCancel _ _ | complete _ _ _ | lose _ _ | reapTerminated _ _
  | loseTerminated _ => exact .inl rfl

theorem isFinished_step (done : w.isFinished = true) (h : w.step e = some next) :
    next.isFinished = true := by
  have same := (frame_of_isFinished done h).1
  simpa only [isFinished, same] using done

theorem sends_of_isFinished (done : w.isFinished = true) (e : Event) : w.sends e = none := by
  have notWatching := stage_ne_watching_of_isFinished done
  cases e <;> simp [sends, notWatching]

theorem of_sends {how : Exit} (h : w.sends e = some how) :
    e = .reap ∧ w.stage = .watching ∧ w.allClosed = true ∧ w.ended = some how := by
  cases e <;> simp only [sends, reduceCtorEq] at h
  split at h
  · rename_i ready
    exact ⟨rfl, ready.1, ready.2, h⟩
  · cases h

theorem completion?_step (h : w.step e = some next) :
    next.completion? = (w.sends e).or w.completion? := by
  cases moves_of_step h with
  | read reading => simp [completion?, sends]
  | endOfStream reading => simp [completion?, sends]
  | readFault reading => simp [completion?, sends]
  | helperEnds _ => simp [completion?, sends]
  | requestCancel => simp [completion?, sends]
  | noticeCancel watching _ => simp [completion?, sends, watching]
  | complete watching closed ended => simp [completion?, sends, watching, closed, ended]
  | lose watching _ => simp [completion?, sends, watching]
  | reapTerminated terminating _ => simp [completion?, sends, terminating]
  | loseTerminated terminating => simp [completion?, sends, terminating]

theorem isFinished_of_sends {how : Exit} (sent : w.sends e = some how) (h : w.step e = some next) :
    next.isFinished = true := by
  obtain ⟨rfl, watching, -, -⟩ := of_sends sent
  cases moves_of_step h with
  | complete _ _ _ => rfl
  | reapTerminated terminating _ =>
    rw [watching] at terminating
    cases terminating

theorem capture_of_sends {how : Exit} (sent : w.sends e = some how) (h : w.step e = some next)
    (s : Stream) : next.capture s = w.capture s := by
  obtain ⟨rfl, -, -, -⟩ := of_sends sent
  cases moves_of_step h with
  | complete _ _ _ | reapTerminated _ _ => cases s <;> rfl

theorem run_keeps {P : Watch → Prop} {events : List Event} {final : Watch}
    (kept : ∀ {w next : Watch} {e : Event}, P w → w.step e = some next → P next) (h : P w)
    (ran : w.run events = some final) : P final := by
  induction events generalizing w with
  | nil =>
    cases ran
    exact h
  | cons e events ih =>
    obtain ⟨next, st, rest⟩ := Option.bind_eq_some_iff.1 ran
    exact ih (kept h st) rest

theorem frame_run_of_isFinished {events : List Event} {final : Watch} (done : w.isFinished = true)
    (ran : w.run events = some final) :
    final.stage = w.stage ∧ ∀ s, final.capture s = w.capture s := by
  refine (run_keeps (P := fun x => x.isFinished = true ∧ x.stage = w.stage ∧
    ∀ s, x.capture s = w.capture s) (fun kept st => ?_) ⟨done, rfl, fun _ => rfl⟩ ran).2
  obtain ⟨still, stage, capture⟩ := kept
  refine ⟨isFinished_step still st, (frame_of_isFinished still st).1.trans stage, fun s => ?_⟩
  exact (capture_step_of_isFinished still st s).trans (capture s)

theorem ended_run {events : List Event} {final : Watch} {how : Exit} (ended : w.ended = some how)
    (ran : w.run events = some final) : final.ended = some how := by
  refine run_keeps (P := fun x => x.ended = some how) (fun known st => ?_) ended ran
  rcases ended_step st with same | ⟨_, -, running, -⟩
  · exact same.trans known
  · rw [known] at running
    cases running

theorem helperEnds_mem {events : List Event} {final : Watch} {how : Exit} (running : w.ended = none)
    (ran : w.run events = some final) (ended : final.ended = some how) :
    .helperEnds how ∈ events := by
  induction events generalizing w with
  | nil =>
    cases ran
    rw [running] at ended
    cases ended
  | cons e events ih =>
    obtain ⟨next, st, rest⟩ := Option.bind_eq_some_iff.1 ran
    rcases ended_step st with same | ⟨how', rfl, -, now⟩
    · exact List.mem_cons_of_mem _ (ih (same.trans running) rest)
    · rw [ended_run now rest] at ended
      cases ended
      exact List.mem_cons_self

end Watch

end LoginSession

import LoginSession.Proofs.Watching

namespace LoginSession

namespace Watch

variable {w next final : Watch} {e : Event} {events : List Event}

def IsGivenUp (w : Watch) : Prop := w.stage = .terminating ∨ w.stage = .cancelled

theorem IsGivenUp.ne_watching (h : w.IsGivenUp) : w.stage ≠ .watching := by
  intro watching
  rcases h with terminating | cancelled
  · rw [watching] at terminating
    cases terminating
  · rw [watching] at cancelled
    cases cancelled

theorem IsGivenUp.completion? (h : w.IsGivenUp) : w.completion? = none := by
  rcases h with terminating | cancelled
  · rw [Watch.completion?, terminating]
  · rw [Watch.completion?, cancelled]

theorem IsGivenUp.step (h : w.IsGivenUp) (st : w.step e = some next) : next.IsGivenUp := by
  have notWatching := h.ne_watching
  cases moves_of_step st with
  | read reading | endOfStream reading | readFault reading =>
    exact absurd (stage_of_isReading reading) notWatching
  | helperEnds _ | requestCancel => exact h
  | noticeCancel watching _ | complete watching _ _ | lose watching _ =>
    exact absurd watching notWatching
  | reapTerminated _ _ | loseTerminated _ => exact .inr rfl

theorem IsGivenUp.run (h : w.IsGivenUp) (ran : w.run events = some final) : final.IsGivenUp :=
  run_keeps IsGivenUp.step h ran

theorem stage_step_of_watching (watching : w.stage = .watching) (st : w.step e = some next) :
    (e = .noticeCancel ∧ next.IsGivenUp) ∨
      (e ≠ .noticeCancel ∧ (next.stage = .watching ∨ ∃ how, next.stage = .completed how)) := by
  cases moves_of_step st with
  | read _ | endOfStream _ | readFault _ =>
    exact .inr ⟨by simp, .inl (by simpa using watching)⟩
  | helperEnds _ | requestCancel => exact .inr ⟨by simp, .inl watching⟩
  | noticeCancel _ _ => exact .inl ⟨rfl, .inl rfl⟩
  | complete _ _ _ | lose _ _ => exact .inr ⟨by simp, .inr ⟨_, rfl⟩⟩
  | reapTerminated terminating _ | loseTerminated terminating =>
    rw [watching] at terminating
    cases terminating

theorem run_of_isFinished (done : w.isFinished = true) (ran : w.run events = some final) :
    .noticeCancel ∉ events ∧ final.stage = w.stage := by
  induction events generalizing w with
  | nil =>
    cases ran
    exact ⟨List.not_mem_nil, rfl⟩
  | cons e events ih =>
    obtain ⟨next, st, rest⟩ := Option.bind_eq_some_iff.1 ran
    obtain ⟨later, same⟩ := ih (isFinished_step done st) rest
    refine ⟨?_, same.trans (frame_of_isFinished done st).1⟩
    rw [List.mem_cons, not_or]
    refine ⟨?_, later⟩
    rintro rfl
    cases moves_of_step st with
    | noticeCancel watching _ => exact stage_ne_watching_of_isFinished done watching

theorem noticed_or_completed (watching : w.stage = .watching) (ran : w.run events = some final)
    (done : final.isFinished = true) :
    (.noticeCancel ∈ events ∧ final.completion? = none) ∨
      (.noticeCancel ∉ events ∧ ∃ how, final.stage = .completed how) := by
  induction events generalizing w with
  | nil =>
    cases ran
    exact absurd watching (stage_ne_watching_of_isFinished done)
  | cons e events ih =>
    obtain ⟨next, st, rest⟩ := Option.bind_eq_some_iff.1 ran
    rcases stage_step_of_watching watching st with ⟨rfl, givenUp⟩ | ⟨other, still | ⟨how, completed⟩⟩
    · exact .inl ⟨List.mem_cons_self, (givenUp.run rest).completion?⟩
    · refine (ih still rest).imp (And.imp_left (List.mem_cons_of_mem _))
        (And.imp_left fun absent => ?_)
      rw [List.mem_cons, not_or]
      exact ⟨other.symm, absent⟩
    · obtain ⟨absent, same⟩ := run_of_isFinished (by simp [isFinished, completed]) rest
      refine .inr ⟨?_, how, same.trans completed⟩
      rw [List.mem_cons, not_or]
      exact ⟨other.symm, absent⟩

@[simp] theorem cancelRequested_setCapture (w : Watch) (c : Capture) (s : Stream) :
    (w.setCapture c s).cancelRequested = w.cancelRequested := by
  cases s <;> rfl

theorem cancelRequested_step (unasked : e ≠ .requestCancel) (st : w.step e = some next) :
    next.cancelRequested = w.cancelRequested := by
  cases moves_of_step st with
  | read _ =>
    unfold feed
    dsimp only
    split <;> simp [giveUp]
  | endOfStream _ | readFault _ => simp [endRead, giveUp]
  | requestCancel => exact absurd rfl unasked
  | helperEnds _ | noticeCancel _ _ | complete _ _ _ | lose _ _ | reapTerminated _ _
  | loseTerminated _ => rfl

theorem noticeCancel_not_mem (unrequested : w.cancelRequested = false)
    (unasked : .requestCancel ∉ events) (ran : w.run events = some final) :
    .noticeCancel ∉ events := by
  induction events generalizing w with
  | nil => exact List.not_mem_nil
  | cons e events ih =>
    obtain ⟨next, st, rest⟩ := Option.bind_eq_some_iff.1 ran
    rw [List.mem_cons, not_or] at unasked ⊢
    have still := (cancelRequested_step (Ne.symm unasked.1) st).trans unrequested
    refine ⟨?_, ih still unasked.2 rest⟩
    rintro rfl
    cases moves_of_step st with
    | noticeCancel _ requested =>
      rw [unrequested] at requested
      cases requested

theorem reapFault_not_mem_of_isFinished (done : w.isFinished = true)
    (ran : w.run events = some final) : .reapFault ∉ events := by
  induction events generalizing w with
  | nil => exact List.not_mem_nil
  | cons e events ih =>
    obtain ⟨next, st, rest⟩ := Option.bind_eq_some_iff.1 ran
    rw [List.mem_cons, not_or]
    refine ⟨?_, ih (isFinished_step done st) rest⟩
    rintro rfl
    cases moves_of_step st with
    | lose watching _ => exact stage_ne_watching_of_isFinished done watching
    | loseTerminated terminating => simp [isFinished, terminating] at done

theorem reapFault_mem_iff {how : Option Exit} (watching : w.stage = .watching)
    (ran : w.run events = some final) (completed : final.stage = .completed how) :
    .reapFault ∈ events ↔ how = none := by
  induction events generalizing w with
  | nil =>
    cases ran
    rw [watching] at completed
    cases completed
  | cons e events ih =>
    obtain ⟨next, st, rest⟩ := Option.bind_eq_some_iff.1 ran
    have later := fun watching => ih (w := next) watching rest
    cases moves_of_step st with
    | read _ | endOfStream _ | readFault _ =>
      simpa using later (by simpa using watching)
    | helperEnds _ | requestCancel => simpa using later watching
    | noticeCancel _ _ =>
      have givenUp : final.IsGivenUp := IsGivenUp.run (.inl rfl) rest
      simp [IsGivenUp, completed] at givenUp
    | @complete exit _ _ _ =>
      have same := (run_of_isFinished rfl rest).2
      have never := reapFault_not_mem_of_isFinished rfl rest
      obtain rfl := Stage.completed.inj (completed.symm.trans same)
      simp [never]
    | lose _ _ =>
      have same := (run_of_isFinished rfl rest).2
      obtain rfl := Stage.completed.inj (completed.symm.trans same)
      simp
    | reapTerminated terminating _ | loseTerminated terminating =>
      rw [watching] at terminating
      cases terminating

theorem of_completed {how : Option Exit} (watching : w.stage = .watching)
    (ran : w.run events = some final) (completed : final.stage = .completed how) :
    final.allClosed = true ∧ (how = none ∨ final.ended = how) := by
  refine run_keeps
    (P := fun x => ∀ how, x.stage = .completed how → x.allClosed = true ∧ (how = none ∨ x.ended = how))
    (fun {x next e} kept st how stage => ?_) (fun how stage => ?_) ran how completed
  · cases moves_of_step st with
    | read reading | endOfStream reading | readFault reading =>
      simp [stage_of_isReading reading] at stage
    | helperEnds running =>
      obtain ⟨closed, ended⟩ := kept how stage
      rw [running] at ended
      exact ⟨closed, .inl (ended.elim id Eq.symm)⟩
    | requestCancel => exact kept how stage
    | complete _ closed ended =>
      cases stage
      exact ⟨closed, .inr ended⟩
    | lose _ closed =>
      cases stage
      exact ⟨closed, .inl rfl⟩
    | noticeCancel _ _ | reapTerminated _ _ | loseTerminated _ => cases stage
  · rw [watching] at stage
    cases stage

theorem completed_of_unasked (unasked : .requestCancel ∉ events)
    (ran : ({} : Watch).run events = some final) (done : final.isFinished = true) :
    final.allClosed = true ∧
      ((.reapFault ∈ events ∧ final.completion? = none) ∨
        (.reapFault ∉ events ∧ ∃ how, .helperEnds how ∈ events ∧ final.completion? = some how)) := by
  have unnoticed := noticeCancel_not_mem rfl unasked ran
  rcases noticed_or_completed rfl ran done with ⟨noticed, -⟩ | ⟨-, how, completed⟩
  · exact absurd noticed unnoticed
  · obtain ⟨closed, known⟩ := of_completed rfl ran completed
    have lost := reapFault_mem_iff rfl ran completed
    have completion : final.completion? = how := by rw [completion?, completed]
    refine ⟨closed, ?_⟩
    cases how with
    | none => exact .inl ⟨lost.2 rfl, completion⟩
    | some how =>
      refine .inr ⟨fun fault => (by simpa using lost.1 fault), how, ?_, completion⟩
      exact helperEnds_mem rfl ran (known.resolve_left (by simp))

/-- Where the helper has ended and both of its streams are closed when the request comes, it is open
whether it will be reported: its watcher may reap it before it notices the request. -/
theorem raced {how : Exit} (watching : w.stage = .watching) (closed : w.allClosed = true)
    (ended : w.ended = some how) (requested : w.cancelRequested = true) :
    (∃ final, w.run [.reap] = some final ∧ final.completion? = some how) ∧
      ∃ final, w.run [.noticeCancel, .reap] = some final ∧ final.completion? = none := by
  refine ⟨⟨{ w with stage := .completed (some how) }, ?_, rfl⟩,
    { w with stage := .cancelled }, ?_, rfl⟩
  · simp [run, step, reaped, watching, closed, ended]
  · simp [run, step, reaped, watching, requested, ended]

end Watch

end LoginSession

import LoginSession.Job.Delivery
import LoginSession.Proofs.Lines
import LoginSession.Proofs.Watching

namespace LoginSession

/-- How far a capture has come with the bytes of its stream. After the end has been seen the stream
may still be open: the last line without a newline joins the text one read before the last. -/
inductive Captured (sent unread : List UInt8) (c : Capture) : Prop where
  | reading {taken : List UInt8} (split : sent = taken ++ unread) (holds : c.Holds taken)
    (isOpen : c.isOpen = true)
  | ended (unread : unread = []) (line : c.line = []) (text : c.text = decodeLines sent)

namespace Captured

variable {sent unread : List UInt8} {c : Capture}

theorem start (sent : List UInt8) : Captured sent sent {} :=
  .reading (List.nil_append sent).symm ⟨[], rfl, .inl rfl, List.not_mem_nil, rfl⟩ rfl

theorem giveUp (h : Captured sent unread c) : Captured sent unread c.giveUp := by
  cases h with
  | reading split holds isOpen => exact .reading split holds.giveUp isOpen
  | ended none line text => exact .ended none line text

theorem feed {bytes rest : List UInt8} (h : Captured sent (bytes ++ rest) c) :
    Captured sent rest (c.feed bytes) := by
  cases h with
  | reading split holds isOpen =>
    refine .reading ?_ (holds.feed bytes) (by simpa using isOpen)
    rw [split, List.append_assoc]
  | ended none line text =>
    obtain ⟨rfl, rfl⟩ := List.append_eq_nil_iff.1 none
    exact .ended rfl line text

theorem endRead (h : Captured sent [] c) (r : ReadResult) : Captured sent [] (c.endRead r) := by
  cases h with
  | reading split holds isOpen =>
    rw [List.append_nil] at split
    exact .ended rfl rfl (split ▸ holds.text_endRead r)
  | ended _ line text =>
    refine .ended rfl rfl ?_
    rw [← text, Capture.endRead, line]
    exact String.append_empty

theorem exists_front (h : Captured sent unread c) :
    ∃ read rest, sent = read ++ rest ∧ (EndsLine read ∨ rest = []) ∧
      c.text = decodeLines read := by
  cases h with
  | reading split holds _ =>
    obtain ⟨whole, taken, ends, -, text⟩ := holds
    exact ⟨whole, c.line.reverse ++ unread, by rw [split, taken, List.append_assoc], .inl ends, text⟩
  | ended _ _ text => exact ⟨sent, [], by simp, .inr rfl, text⟩

theorem of_closed (h : Captured sent unread c) (closed : c.isOpen = false) :
    unread = [] ∧ c.text = decodeLines sent := by
  cases h with
  | reading _ _ isOpen =>
    rw [closed] at isOpen
    cases isOpen
  | ended none _ text => exact ⟨none, text⟩

end Captured

theorem Watch.exists_text_step {w next : Watch} {e : Event} (h : w.step e = some next)
    (s : Stream) : ∃ more, (next.capture s).text = (w.capture s).text ++ more := by
  have same : ∃ more, (w.capture s).text = (w.capture s).text ++ more := ⟨"", by simp⟩
  cases moves_of_step h with
  | @read t bytes _ =>
    rcases t.eq_or_eq_other s with rfl | rfl
    · rw [capture_feed]
      exact Capture.exists_text_feed _ bytes
    · rcases capture_feed_other w t bytes with kept | givenUp
      · rw [kept]
        exact same
      · rw [givenUp]
        exact same
  | @endOfStream t _ | @readFault t _ =>
    rcases t.eq_or_eq_other s with rfl | rfl
    · rw [capture_endRead]
      exact ⟨_, rfl⟩
    · rw [capture_endRead_other]
      exact same
  | helperEnds _ | requestCancel | noticeCancel _ _ | complete _ _ _ | lose _ _
  | reapTerminated _ _ | loseTerminated _ => cases s <;> exact same

theorem Watch.exists_text_run {w final : Watch} {events : List Event}
    (ran : w.run events = some final) (s : Stream) :
    ∃ more, (final.capture s).text = (w.capture s).text ++ more := by
  refine run_keeps (P := fun x => ∃ more, (x.capture s).text = (w.capture s).text ++ more)
    (fun grown st => ?_) ⟨"", by simp⟩ ran
  obtain ⟨first, hf⟩ := grown
  obtain ⟨later, hl⟩ := exists_text_step st s
  exact ⟨first ++ later, by rw [hl, hf, String.append_assoc]⟩

namespace Delivery

/-- What the bytes that are unread, the lines and the texts have to do with each other. -/
def Sound (sent : Stream → List UInt8) (d : Delivery) : Prop :=
  ∀ s, Captured (sent s) (d.unread s) (d.watch.capture s)

variable {sent : Stream → List UInt8} {d next : Delivery} {e : Watch.Event}

theorem sound_start (sent : Stream → List UInt8) : Sound sent (start sent) := by
  intro s
  cases s <;> exact .start _

theorem step_cases (h : d.step e = some next) :
    d.watch.step e = some next.watch ∧
      ((∃ s bytes, e = .read s bytes ∧ bytes <+: d.unread s ∧
          next.unread = d.after s bytes.length) ∨
        ((∀ s bytes, e ≠ .read s bytes) ∧ next.unread = d.unread ∧
          ∀ s, e = .endOfStream s ∨ e = .readFault s → d.unread s = [])) := by
  cases e with
  | read s bytes =>
    simp only [step, Option.ite_none_right_eq_some, Option.map_eq_some_iff] at h
    obtain ⟨front, watch, hw, rfl⟩ := h
    exact ⟨hw, .inl ⟨s, bytes, rfl, front, rfl⟩⟩
  | endOfStream s =>
    simp only [step, Option.ite_none_right_eq_some, Option.map_eq_some_iff] at h
    obtain ⟨none, watch, hw, rfl⟩ := h
    exact ⟨hw, .inr ⟨by simp, rfl, by simpa using none⟩⟩
  | readFault s =>
    simp only [step, Option.ite_none_right_eq_some, Option.map_eq_some_iff] at h
    obtain ⟨none, watch, hw, rfl⟩ := h
    exact ⟨hw, .inr ⟨by simp, rfl, by simpa using none⟩⟩
  | helperEnds _ | requestCancel | noticeCancel | reap | reapFault =>
    simp only [step, Option.map_eq_some_iff] at h
    obtain ⟨watch, hw, rfl⟩ := h
    exact ⟨hw, .inr ⟨by simp, rfl, by simp⟩⟩

theorem Sound.read {s : Stream} {bytes : List UInt8} {unread : Stream → List UInt8}
    (h : Sound sent d) (front : bytes <+: d.unread s) (after : unread = d.after s bytes.length) :
    Sound sent { watch := d.watch.feed s bytes, unread } := by
  intro t
  obtain ⟨rest, whole⟩ := front
  subst after
  rcases s.eq_or_eq_other t with rfl | rfl
  · have here := h t
    rw [← whole] at here
    simpa [Delivery.after, ← whole, Watch.capture_feed] using here.feed
  · have there := h s.other
    have same : d.after s bytes.length s.other = d.unread s.other := if_neg s.other_ne
    dsimp only
    rw [same]
    rcases Watch.capture_feed_other d.watch s bytes with kept | givenUp
    · rw [kept]
      exact there
    · rw [givenUp]
      exact there.giveUp

theorem Sound.endRead {s : Stream} (h : Sound sent d) (none : d.unread s = []) (r : ReadResult) :
    Sound sent { d with watch := d.watch.endRead s r } := by
  intro t
  rcases s.eq_or_eq_other t with rfl | rfl
  · have here := h t
    rw [none] at here
    rw [none, Watch.capture_endRead]
    exact here.endRead r
  · rw [Watch.capture_endRead_other]
    exact (h s.other).giveUp

theorem Sound.step (h : Sound sent d) (st : d.step e = some next) : Sound sent next := by
  obtain ⟨moved, reads | ⟨noRead, unread, atEnd⟩⟩ := step_cases st
  · obtain ⟨s, bytes, rfl, front, after⟩ := reads
    obtain ⟨watch, left⟩ := next
    cases Watch.moves_of_step moved with
    | read _ => exact h.read front after
  · obtain ⟨watch, left⟩ := next
    subst unread
    cases Watch.moves_of_step moved with
    | read _ => exact absurd rfl (noRead _ _)
    | endOfStream _ => exact h.endRead (atEnd _ (.inl rfl)) _
    | readFault _ => exact h.endRead (atEnd _ (.inr rfl)) _
    | helperEnds _ | requestCancel | noticeCancel _ _ | complete _ _ _ | lose _ _
    | reapTerminated _ _ | loseTerminated _ => exact fun s => by cases s <;> exact h _

theorem Sound.run {events : List Watch.Event} {final : Delivery} (h : Sound sent d)
    (ran : d.run events = some final) : Sound sent final := by
  induction events generalizing d with
  | nil =>
    cases ran
    exact h
  | cons e events ih =>
    obtain ⟨next, st, rest⟩ := Option.bind_eq_some_iff.1 ran
    exact ih (h.step st) rest

theorem watch_run {events : List Watch.Event} {final : Delivery} (ran : d.run events = some final) :
    d.watch.run events = some final.watch := by
  induction events generalizing d with
  | nil =>
    cases ran
    rfl
  | cons e events ih =>
    obtain ⟨next, st, rest⟩ := Option.bind_eq_some_iff.1 ran
    exact Option.bind_eq_some_iff.2 ⟨next.watch, (step_cases st).1, ih rest⟩

theorem completions_of_isFinished (done : d.watch.isFinished = true) (events : List Watch.Event) :
    d.completions events = [] := by
  induction events generalizing d with
  | nil => rfl
  | cons e events ih =>
    rw [completions]
    split
    · rfl
    · rename_i next st
      have moved := (step_cases st).1
      rw [Watch.sends_of_isFinished done, ih (Watch.isFinished_step done moved)]
      rfl

theorem completions_cons (st : d.step e = some next) (events : List Watch.Event) :
    d.completions (e :: events) = (d.watch.sends e).toList ++ next.completions events := by
  rw [completions, st]

theorem length_completions_le_one (d : Delivery) (events : List Watch.Event) :
    (d.completions events).length ≤ 1 := by
  induction events generalizing d with
  | nil => exact Nat.zero_le 1
  | cons e events ih =>
    cases st : d.step e with
    | none => simp [completions, st]
    | some next =>
      rw [completions_cons st]
      cases sent : d.watch.sends e with
      | none => simpa using ih next
      | some how =>
        -- the step that sends leaves a watcher that is done, and sends nothing any more
        have done := Watch.isFinished_of_sends sent (step_cases st).1
        rw [completions_of_isFinished done, List.append_nil]
        exact Nat.le_of_eq rfl

theorem exists_sends_of_mem_completions {events : List Watch.Event} {how : Exit}
    (h : how ∈ d.completions events) :
    ∃ before e after mid, events = before ++ e :: after ∧ d.run before = some mid ∧
      mid.watch.sends e = some how := by
  induction events generalizing d with
  | nil => cases h
  | cons e events ih =>
    cases st : d.step e with
    | none => simp [completions, st] at h
    | some next =>
      rw [completions_cons st, List.mem_append, Option.mem_toList] at h
      rcases h with now | later
      · exact ⟨[], e, events, d, rfl, rfl, now⟩
      · obtain ⟨before, e', after, mid, rfl, ran, sent⟩ := ih later
        refine ⟨e :: before, e', after, mid, rfl, ?_, sent⟩
        simp only [run, List.foldlM_cons, st]
        exact ran

theorem run_append {before after : List Watch.Event} {final : Delivery}
    (ran : d.run (before ++ after) = some final) :
    ∃ mid, d.run before = some mid ∧ mid.run after = some final := by
  rw [run, List.foldlM_append] at ran
  exact Option.bind_eq_some_iff.1 ran

theorem completions_append {before : List Watch.Event} {mid : Delivery}
    (ran : d.run before = some mid) (after : List Watch.Event) :
    d.completions (before ++ after) = d.completions before ++ mid.completions after := by
  induction before generalizing d with
  | nil =>
    cases ran
    rfl
  | cons e before ih =>
    obtain ⟨next, st, rest⟩ := Option.bind_eq_some_iff.1 ran
    rw [List.cons_append, completions_cons st, completions_cons st, ih rest, List.append_assoc]

theorem run_single (st : d.step e = some next) : d.run [e] = some next := by
  rw [run, List.foldlM_cons, st]
  rfl

theorem run_trans {before after : List Watch.Event} {mid final : Delivery}
    (first : d.run before = some mid) (second : mid.run after = some final) :
    d.run (before ++ after) = some final := by
  rw [run, List.foldlM_append]
  exact Option.bind_eq_some_iff.2 ⟨mid, first, second⟩

def Closes (d : Delivery) (s : Stream) (final : Delivery) : Prop :=
  (∃ events, d.run events = some final) ∧ final.watch.stage = .watching ∧
    final.watch.ended = d.watch.ended ∧ (final.watch.capture s).isOpen = false ∧
    (final.watch.capture s.other).isOpen = (d.watch.capture s.other).isOpen

theorem step_endOfStream {s : Stream} (reading : d.watch.isReading s = true)
    (none : d.unread s = []) : d.step (.endOfStream s) =
      some { d with watch := d.watch.endRead s (.bytes (d.watch.capture s).taken) } := by
  simp [step, Watch.step, reading, none]

theorem exists_closes_of_drained {s : Stream} (reading : d.watch.isReading s = true)
    (none : d.unread s = []) : ∃ final, d.Closes s final := by
  obtain ⟨watching, opened⟩ := Watch.isReading_iff.1 reading
  have first := step_endOfStream reading none
  by_cases last : (d.watch.capture s).taken = 0
  · refine ⟨_, ⟨_, run_single first⟩, ?_⟩
    simp [watching, last, Watch.capture_endRead, Capture.endRead, ReadResult.isLast]
  · have readingStill : (d.watch.endRead s (.bytes (d.watch.capture s).taken)).isReading s = true := by
      rw [Watch.isReading_iff, Watch.stage_endRead, Watch.capture_endRead]
      simp [watching, opened, last, Capture.endRead, ReadResult.isLast]
    have second := step_endOfStream
      (d := { d with watch := d.watch.endRead s (.bytes (d.watch.capture s).taken) }) readingStill none
    refine ⟨_, ⟨_, run_trans (run_single first) (run_single second)⟩, ?_⟩
    simp [watching, Watch.capture_endRead, Capture.endRead, ReadResult.isLast]

theorem exists_closes (watching : d.watch.stage = .watching) (s : Stream) :
    ∃ final, d.Closes s final := by
  cases opened : (d.watch.capture s).isOpen with
  | false => exact ⟨d, ⟨[], rfl⟩, watching, rfl, opened, rfl⟩
  | true =>
    have reading := Watch.isReading_iff.2 ⟨watching, opened⟩
    have read : d.step (.read s (d.unread s)) = some
        { watch := d.watch.feed s (d.unread s), unread := d.after s (d.unread s).length } := by
      simp [step, Watch.step, reading]
    obtain ⟨final, ⟨events, ran⟩, still, ended, closed, other⟩ := exists_closes_of_drained
      (d := { watch := d.watch.feed s (d.unread s), unread := d.after s (d.unread s).length })
      (s := s) (by simp [Watch.isReading_iff, watching, opened]) (by simp [after])
    refine ⟨final, ⟨_, run_trans (run_single read) ran⟩, still, ?_, closed, ?_⟩
    · rw [ended, Watch.ended_feed]
    · rw [other, Watch.isOpen_feed_other]

theorem exists_run_closed (watching : d.watch.stage = .watching) :
    ∃ events mid, d.run events = some mid ∧ mid.watch.stage = .watching ∧
      mid.watch.ended = d.watch.ended ∧ mid.watch.allClosed = true := by
  obtain ⟨first, ⟨before, ranFirst⟩, watchingFirst, endedFirst, output, -⟩ :=
    exists_closes watching .output
  obtain ⟨second, ⟨after, ranSecond⟩, watchingSecond, endedSecond, diagnostics, same⟩ :=
    exists_closes watchingFirst .diagnostics
  refine ⟨_, second, run_trans ranFirst ranSecond, watchingSecond, endedSecond.trans endedFirst, ?_⟩
  refine Watch.allClosed_iff.2 fun s => ?_
  cases s with
  | output => exact same.trans output
  | diagnostics => exact diagnostics

theorem completions_reap {how : Exit} (watching : d.watch.stage = .watching)
    (closed : d.watch.allClosed = true) (ended : d.watch.ended = some how) :
    d.completions [.reap] = [how] := by
  simp [completions, step, Watch.step, Watch.reaped, Watch.sends, watching, closed, ended]

theorem exists_completion (watching : d.watch.stage = .watching) {how : Exit}
    (ended : d.watch.ended = none ∨ d.watch.ended = some how) :
    ∃ events, how ∈ d.completions events := by
  obtain ⟨events, mid, ran, still, same, closed⟩ := exists_run_closed watching
  rcases ended with running | ended
  · obtain ⟨next, ends, watchingNext, closedNext, endedNext⟩ : ∃ next,
        mid.step (.helperEnds how) = some next ∧ next.watch.stage = .watching ∧
          next.watch.allClosed = true ∧ next.watch.ended = some how :=
      ⟨{ mid with watch := { mid.watch with ended := some how } },
        by simp [step, Watch.step, same, running], still, closed, rfl⟩
    refine ⟨events ++ .helperEnds how :: [.reap], ?_⟩
    rw [completions_append ran, completions_cons ends,
      completions_reap watchingNext closedNext endedNext]
    simp
  · refine ⟨events ++ [.reap], ?_⟩
    rw [completions_append ran, completions_reap still closed (same.trans ended)]
    simp

/-- Whatever the interleaving: a captured text is the decoding of whole lines from the front of its
stream, or of all of it, and only grows; a helper that is still watched can complete. A completion
is sent at most once, by the step that reaps the helper after both streams have closed; by then, and
from then on, both texts are the decoding of all that was delivered. -/
theorem run_faithful {events : List Watch.Event} {final : Delivery}
    (ran : (start sent).run events = some final) :
    (∀ s, ∃ read rest, sent s = read ++ rest ∧ (EndsLine read ∨ rest = []) ∧
      (final.watch.capture s).text = decodeLines read) ∧
    (∀ before after, events = before ++ after → ∃ mid, (start sent).run before = some mid ∧
      ∀ s, ∃ more, (final.watch.capture s).text = (mid.watch.capture s).text ++ more) ∧
    (final.watch.stage = .watching → ∀ how,
      final.watch.ended = none ∨ final.watch.ended = some how →
        ∃ more, how ∈ (start sent).completions (events ++ more)) ∧
    ((start sent).completions events).length ≤ 1 ∧
    ∀ how ∈ (start sent).completions events, ∃ before after mid,
      events = before ++ .reap :: after ∧ (start sent).run before = some mid ∧
      (start sent).completions before = [] ∧ .helperEnds how ∈ before ∧
      (∀ s, (mid.watch.capture s).isOpen = false ∧ mid.unread s = [] ∧
        (mid.watch.capture s).text = decodeLines (sent s)) ∧
      final.watch.completion? = some how ∧
      ∀ s, (final.watch.capture s).text = decodeLines (sent s) := by
  have once := length_completions_le_one (start sent) events
  refine ⟨fun s => ((sound_start sent).run ran s).exists_front, ?_, ?_, once, ?_⟩
  · rintro before after rfl
    obtain ⟨mid, ranBefore, ranAfter⟩ := run_append ran
    exact ⟨mid, ranBefore, Watch.exists_text_run (watch_run ranAfter)⟩
  · intro watching how ended
    obtain ⟨more, sends⟩ := exists_completion watching ended
    refine ⟨more, ?_⟩
    rw [completions_append ran]
    exact List.mem_append_right _ sends
  · intro how member
    obtain ⟨before, e, after, mid, rfl, ranBefore, sends⟩ := exists_sends_of_mem_completions member
    obtain ⟨rfl, watching, closed, ended⟩ := Watch.of_sends sends
    obtain ⟨mid', ranBefore', ranAfter⟩ := run_append ran
    obtain rfl : mid = mid' := Option.some.inj (ranBefore.symm.trans ranBefore')
    obtain ⟨next, st, rest⟩ := Option.bind_eq_some_iff.1 ranAfter
    have whole : ∀ s, (mid.watch.capture s).isOpen = false ∧ mid.unread s = [] ∧
        (mid.watch.capture s).text = decodeLines (sent s) := by
      intro s
      have shut := Watch.allClosed_iff.1 closed s
      exact ⟨shut, ((sound_start sent).run ranBefore s).of_closed shut⟩
    have moved := (step_cases st).1
    have done := Watch.isFinished_of_sends sends moved
    obtain ⟨stage, captures⟩ := Watch.frame_run_of_isFinished done (watch_run rest)
    have ends := Watch.helperEnds_mem rfl (watch_run ranBefore) ended
    refine ⟨before, after, mid, rfl, ranBefore, ?_, ends, whole, ?_, ?_⟩
    · rw [completions_append ranBefore, completions_cons st, sends] at once
      simp only [List.length_append, Option.toList_some, List.length_singleton] at once
      exact List.length_eq_zero_iff.1 (by omega)
    · have sent := Watch.completion?_step moved
      rw [sends] at sent
      rw [Watch.completion?, stage]
      exact sent
    · intro s
      rw [captures, Watch.capture_of_sends sends moved]
      exact (whole s).2.2

/-- One stream ends without a newline, the other holds a byte that is no text. -/
def torn : Stream → List UInt8
  | .output => [97, 98, 10, 99]
  | .diagnostics => [255, 10]

/-- The first line of each stream is read in two parts, with the read of the other given up in
between; the last line has no newline and its end comes in a read of nothing; the helper ends early,
and a request to cancel it comes too late to be noticed. -/
def tornEvents : List Watch.Event :=
  [.read .output [97], .read .diagnostics [255], .helperEnds (.exited 3), .read .output [98, 10],
    .read .diagnostics [10], .read .output [99], .endOfStream .diagnostics, .endOfStream .output,
    .requestCancel, .reap]

theorem run_faithful_torn : ∃ final, (start torn).run tornEvents = some final ∧
    (start torn).completions tornEvents = [.exited 3] ∧
    final.watch.output.text = "ab\nc" ∧ final.watch.diagnostics.text = "\uFFFD\n" := by
  have possible : ((start torn).run tornEvents).isSome := by decide
  obtain ⟨final, ran⟩ := Option.isSome_iff_exists.1 possible
  obtain ⟨-, -, -, -, complete⟩ := run_faithful ran
  obtain ⟨_, _, _, _, _, _, _, _, _, texts⟩ := complete (.exited 3) (by decide)
  exact ⟨final, ran, by decide, (texts .output).trans (by decide),
    (texts .diagnostics).trans (by decide)⟩

end Delivery

end LoginSession

import LoginSession.Process.WaitStatus
import LoginSession.Proofs.Replay
import LoginSession.Proofs.Transaction

namespace LoginSession

namespace WaitStatus

variable {w : UInt32}

theorem ofStatus_dumped (w : UInt32) : Exit.ofStatus (w ||| 0x80) = Exit.ofStatus w := by
  have value : (w ||| 0x80).toNat = w.toNat ||| 128 := UInt32.toNat_or w 0x80
  have low : (w.toNat ||| 128) % 2 ^ 7 = w.toNat % 2 ^ 7 := by
    rw [Nat.or_mod_two_pow]
    exact Nat.or_zero _
  have second : (w.toNat ||| 128) / 2 ^ 8 = w.toNat / 2 ^ 8 := by
    rw [Nat.or_div_two_pow]
    exact Nat.or_zero _
  rw [Exit.ofStatus, Exit.ofStatus, value]
  change (w.toNat ||| 128) % 128 = w.toNat % 128 at low
  change (w.toNat ||| 128) / 256 = w.toNat / 256 at second
  rw [low, second]

theorem code_cases (w : UInt32) :
    (w.toNat % 128 = 0 ∧ (Exit.ofStatus w).code = (w.toNat / 256 % 256 : Nat)) ∨
    (wasKilled w = true ∧ (Exit.ofStatus w).code = 128 + (ending w).toInt) ∨
    (w.toNat % 128 = 127 ∧ (Exit.ofStatus w).code = -1) := by
  have low := toInt_ending w
  have killed := @wasKilled_iff w
  rw [Exit.ofStatus]
  by_cases exited : w.toNat % 128 = 0
  · rw [if_pos exited]
    exact .inl ⟨exited, rfl⟩
  · rw [if_neg exited]
    by_cases undecodable : w.toNat % 128 = 127
    · rw [if_neg (not_not_intro undecodable)]
      exact .inr (.inr ⟨undecodable, rfl⟩)
    · rw [if_pos undecodable, low]
      exact .inr (.inl ⟨killed.2 ⟨exited, undecodable⟩, rfl⟩)

theorem code_range (w : UInt32) : (Exit.ofStatus w).code = -1 ∨
    0 ≤ (Exit.ofStatus w).code ∧ (Exit.ofStatus w).code ≤ 255 := by
  have low := toInt_ending w
  rcases code_cases w with ⟨-, code⟩ | ⟨killed, code⟩ | ⟨-, code⟩
  · omega
  · have bounds := wasKilled_iff.1 killed
    omega
  · exact .inl code

theorem code_eq_zero_iff : (Exit.ofStatus w).code = 0 ↔ IsClean w := by
  have low := toInt_ending w
  rw [isClean_iff]
  rcases code_cases w with ⟨exited, code⟩ | ⟨killed, code⟩ | ⟨undecodable, code⟩
  · rw [code, Int.natCast_eq_zero, and_iff_right exited]
  · have bounds := wasKilled_iff.1 killed
    omega
  · omega

theorem code_of_wasKilled (killed : wasKilled w = true) :
    (Exit.ofStatus w).code = (128 + ending w).toInt ∧ 129 ≤ (Exit.ofStatus w).code := by
  have low := toInt_ending w
  have sum := toInt_shellCode w
  have bounds := wasKilled_iff.1 killed
  rcases code_cases w with ⟨exited, -⟩ | ⟨-, code⟩ | ⟨undecodable, -⟩
  · omega
  · omega
  · omega

theorem code_eq_neg_one_iff : (Exit.ofStatus w).code = -1 ↔ w &&& 0x7f = 0x7f := by
  have low := toNat_low w
  have ones : (0x7f : UInt32).toNat = 127 := rfl
  have ending := toInt_ending w
  rw [← UInt32.toNat_inj, ones, low]
  rcases code_cases w with ⟨exited, code⟩ | ⟨killed, code⟩ | ⟨undecodable, code⟩
  · omega
  · have bounds := wasKilled_iff.1 killed
    omega
  · omega

theorem low_of_notEnded (notEnded : isStopped w = true ∨ isContinued w = true) :
    w &&& 0x7f = 0x7f := by
  rcases notEnded with stopped | continued
  · have byte : w &&& 0xff = 0x7f := of_decide_eq_true stopped
    have inner : (0xff : UInt32) &&& 0x7f = 0x7f := rfl
    rw [← inner, ← UInt32.and_assoc, byte]
    rfl
  · have word : w = 0xffff := of_decide_eq_true continued
    rw [word]
    rfl

end WaitStatus

theorem Watch.ended_of_mem {w final : Watch} {events : List Watch.Event} {how : Exit}
    (ran : w.run events = some final) (member : .helperEnds how ∈ events) :
    final.ended = some how := by
  induction events generalizing w with
  | nil => cases member
  | cons e events ih =>
    obtain ⟨next, st, rest⟩ := Option.bind_eq_some_iff.1 ran
    rcases List.mem_cons.1 member with rfl | later
    · have now : next.ended = some how := by
        cases moves_of_step st with
        | helperEnds running => rfl
      exact ended_run now rest
    · exact ih rest later

namespace Sessions

variable {α : Type} {s : Sessions α} {record : List (Entry α)} {events before after : List (Event α)}
  {n id : Nat} {report : Report} {context : α} {how : Exit}

theorem mem_helperEvents {e : Watch.Event} : e ∈ helperEvents events id ↔ .watch id e ∈ events := by
  rw [helperEvents, List.mem_filterMap]
  constructor
  · rintro ⟨event, member, watched⟩
    cases event with
    | watch job e' =>
      obtain ⟨rfl, rfl⟩ : job = id ∧ e' = e := by
        simpa only [Event.watched?, Option.ite_none_right_eq_some, Option.some.injEq] using watched
      exact member
    | create | identify | override | newJob | collect | complete | call | flag | cancel | terminate
    | proceed => cases watched
  · intro member
    exact ⟨_, member, if_pos rfl⟩

/-- A callback is given parameters if and only if the helper that was reaped had ended well. -/
theorem isSome_parameters (ran : ({} : Sessions α).run events = some (s, record))
    (called : .called n id report context ∈ record)
    (ended : .watch id (.helperEnds how) ∈ events) (reaped : .watch id .reapFault ∉ events) :
    report.parameters.isSome = how.isSuccess := by
  obtain ⟨before, e, after, mid, first, next, added, more, rfl, ran', st, inside, -⟩ :=
    exists_of_mem_record ran called
  have traced := Traced.of_run ran'
  obtain ⟨k, c, rfl, -, -, same, parameters⟩ :=
    traced.parameters_of_called (Settled.of_run ran') st inside
  obtain ⟨-, r, -, -, seen, done⟩ := (traced.step st).exists_watch (List.mem_append_right _ inside)
  rw [same] at seen
  obtain ⟨text, -, lost | ⟨-, how', ended', result⟩⟩ :=
    @resultOf_cases (overridesAfter before n) _ _ (traced.unasked id) seen done
  · have fault := mem_helperEvents.1 lost.1
    exact absurd (List.mem_append_left _ fault) reaped
  · -- a helper ends once, so the end that was reaped is the one in question
    obtain ⟨-, r', -, -, whole, -⟩ := (Traced.of_run ran).exists_watch called
    have atCall := Watch.ended_of_mem whole
      (mem_helperEvents.2 (List.mem_append_left _ (mem_helperEvents.1 ended')))
    have atEnd := Watch.ended_of_mem whole (mem_helperEvents.2 ended)
    obtain rfl : how' = how := Option.some.inj (atCall.symm.trans atEnd)
    rw [parameters, result]
    cases how'.isSuccess <;> rfl

end Sessions

open WaitStatus in
/-- The code of a word is zero for a clean exit alone. Of the others a death by a signal counts from
129, and what is neither an exit nor a death is -1. -/
theorem Exit.trusted_iff_isClean (w : UInt32) :
    ofStatus w = decode w ∧
    ((ofStatus w).isSuccess = true ↔ IsClean w) ∧
    ((ofStatus w).code = 0 ↔ IsClean w) ∧
    ((ofStatus w).code = -1 ∨ 0 ≤ (ofStatus w).code ∧ (ofStatus w).code ≤ 255) ∧
    ((ofStatus w).code = -1 ↔ w &&& 0x7f = 0x7f) ∧
    (isStopped w = true ∨ isContinued w = true → (ofStatus w).code = -1) ∧
    (128 + ending w).toInt = 128 + (ending w).toInt ∧
    (wasKilled w = true → (ofStatus w).code = (128 + ending w).toInt ∧ 129 ≤ (ofStatus w).code) ∧
    ofStatus (w ||| 0x80) = ofStatus w ∧
    (∀ (l : Leader) (report : String),
      l.result (some (ofStatus w)) report = if IsClean w then some (l.merge report) else none) ∧
    ∀ {α : Type} (events : List (Sessions.Event α)) (s : Sessions α)
      (record : List (Sessions.Entry α)), ({} : Sessions α).run events = some (s, record) →
      ∀ n id report context, .called n id report context ∈ record →
        .watch id (.helperEnds (ofStatus w)) ∈ events → .watch id .reapFault ∉ events →
        report.parameters.isSome = decide (IsClean w) := by
  have trusted : (ofStatus w).isSuccess = decide (IsClean w) := by
    rw [Bool.eq_iff_iff, decide_eq_true_iff]
    exact isSuccess_iff_isClean
  refine ⟨ofStatus_eq_decode w, isSuccess_iff_isClean, code_eq_zero_iff, code_range w,
    code_eq_neg_one_iff, fun notEnded => code_eq_neg_one_iff.2 (low_of_notEnded notEnded),
    toInt_shellCode w, code_of_wasKilled, ofStatus_dumped w, fun l report => ?_,
    fun events s record ran n id report context called ended reaped => ?_⟩
  · rw [Leader.result, trusted]
    simp only [decide_eq_true_eq]
  · rw [Sessions.isSome_parameters ran called ended reaped, trusted]

/-- A helper that reports a parameter and then dumps core. -/
def Sessions.crashEvents : List (Sessions.Event Nat) :=
  [.create {}, .collect 0 7 fun _ => .ok ((), { process := 1, output := 2, diagnostics := 3 }),
    .watch 1 (.read .output Attempt.localLine), .watch 1 (.helperEnds (Exit.ofStatus 0x8b)),
    .watch 1 (.endOfStream .output), .watch 1 (.endOfStream .diagnostics), .watch 1 .reap,
    .complete 0, .call 0]

open WaitStatus in
theorem Exit.trusted_iff_isClean_dumped :
    isStopped 0x137f = true ∧ (ofStatus 0x137f).code = -1 ∧
    wasKilled 0x8b = true ∧ 129 ≤ (ofStatus 0x8b).code ∧
    ∃ s report, ({} : Sessions Nat).run Sessions.crashEvents =
        some (s, [.started 0 1 7, .removed 0 1, .called 0 1 report 7]) ∧
      report.parameters.isSome = false := by
  have stopped : isStopped 0x137f = true := by decide
  have killed : wasKilled 0x8b = true := by decide
  obtain ⟨-, -, -, -, -, suspended, -⟩ := trusted_iff_isClean 0x137f
  obtain ⟨-, -, -, -, -, -, -, dead, -, -, told⟩ := trusted_iff_isClean 0x8b
  obtain ⟨s, ran⟩ : ∃ s, ({} : Sessions Nat).run Sessions.crashEvents =
      some (s, [.started 0 1 7, .removed 0 1, .called 0 1 ⟨none, {}, false⟩ 7]) := ⟨_, rfl⟩
  have unclean := told Sessions.crashEvents s _ ran 0 1 ⟨none, {}, false⟩ 7 (by simp)
    (by simp [Sessions.crashEvents]) (by simp [Sessions.crashEvents])
  exact ⟨stopped, suspended (.inl stopped), killed, (dead killed).2, s, _, ran,
    unclean.trans (by decide)⟩

end LoginSession

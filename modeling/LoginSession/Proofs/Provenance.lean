import LoginSession.Proofs.Reordering
import LoginSession.Proofs.Transaction

namespace LoginSession

namespace Sessions

variable {α : Type} {s t next final : Sessions α} {record added told : List (Entry α)}
  {events later later' : List (Event α)} {n id : Nat} {context : α} {report : Report}

theorem lt_of_started (reached : Reached s record) (started : .started n id context ∈ record) :
    n < s.leaders.length := by
  induction reached with
  | start => cases started
  | step before st ih =>
    have moves := moves_of_step st
    refine Nat.lt_of_lt_of_le ?_ moves.length_leaders_le
    rcases List.mem_append.1 started with old | now
    · exact ih old
    · cases moves with
      | start known =>
        simp only [List.mem_singleton, Entry.started.injEq] at now
        exact now.1 ▸ known
      | create _ _ | identify _ | override _ | newJob | refuse _ | watch _ _ _ | remove _ _ _ _ _
      | drop _ _ _ _ _ | call _ _ _ | flag _ | cancel _ | terminate _ _ _ _ | proceed _ _ _ =>
        simp at now

theorem overridesAfter_append (known : n < (events.filterMap Event.created?).length)
    (unset : ∀ parameters, .override n parameters ∉ later) :
    overridesAfter (events ++ later) n = overridesAfter events n := by
  have created : createdLeader (events ++ later) n = createdLeader events n := by
    rw [createdLeader, List.filterMap_append, List.getElem?_append_left known, createdLeader]
  have silent : later.filterMap (·.installed? n) = [] := by
    rw [List.filterMap_eq_nil_iff]
    intro e member
    cases e with
    | override m parameters =>
      refine if_neg ?_
      rintro rfl
      exact unset parameters member
    | create | identify | newJob | collect | watch | complete | call | flag | cancel | terminate
    | proceed => rfl
  rw [overridesAfter, lastOf, List.filterMap_append, silent, List.append_nil, created,
    overridesAfter, lastOf]

theorem parameters_of_later (ran : ({} : Sessions α).run events = some (s, record))
    (ranLater : s.run later = some (t, told)) (called : .called n id report context ∈ told)
    (unset : ∀ parameters, .override n parameters ∉ later) : report.parameters =
      resultOf (overridesAfter (events ++ later) n) (helperEvents (events ++ later) id) := by
  have whole := Traced.of_run (run_trans ran ranLater)
  obtain ⟨before, e, after, mid, first, next, added, _, rfl, ran', st, inside, -⟩ :=
    exists_of_mem_record ranLater called
  have reachedHere := run_trans ran ran'
  have traced := Traced.of_run reachedHere
  have settled := Settled.of_run reachedHere
  obtain ⟨k, -, rfl, -, -, same, parameters⟩ := traced.parameters_of_called settled st inside
  obtain ⟨-, r, -, -, seen, done⟩ := (traced.step st).exists_watch (List.mem_append_right _ inside)
  obtain ⟨-, r', -, -, seen', -⟩ := whole.exists_watch (List.mem_append_right _ called)
  rw [same] at seen
  -- the leader is known at the call, since its collection has been started
  have started := ((Accounted.of_reached (traced.reached.step st)).of_called
    (List.mem_append_right _ inside)).1
  have known := lt_of_started (traced.reached.step st) started
  rw [(settled.step st).leaders, filterMap_concat] at known
  simp only [Event.created?, Option.toList_none, List.append_nil] at known
  have split : helperEvents (events ++ (before ++ .call k :: after)) id =
      helperEvents (events ++ before) id ++ helperEvents (.call k :: after) id := by
    rw [helperEvents, ← List.append_assoc, List.filterMap_append]
    rfl
  rw [split] at seen' ⊢
  rw [resultOf_append seen done seen', parameters, ← List.append_assoc]
  refine congrArg (resultOf · _) (overridesAfter_append known fun parameters member => ?_).symm
  exact unset parameters (List.mem_append_right _ member)

theorem filterMap_of_filter {β : Type} {f : Event α → Option β}
    (silent : ∀ e, e.completes = true → f e = none) (events : List (Event α)) :
    (events.filter (!·.completes)).filterMap f = events.filterMap f := by
  rw [List.filterMap_filter]
  refine List.filterMap_congr fun e _ => ?_
  cases completes : e.completes with
  | false => rfl
  | true => exact (silent e completes).symm

theorem foldl_extend_filter (events : List (Event α)) (made : Nat × List (Nat × Nat × α)) :
    (events.filter (!·.completes)).foldl Event.extend made = events.foldl Event.extend made := by
  rw [List.foldl_filter]
  congr 1
  funext made e
  cases e <;> rfl

theorem resultOf_reordered (same : later.filter (!·.completes) = later'.filter (!·.completes))
    (n id : Nat) :
    resultOf (overridesAfter (events ++ later) n) (helperEvents (events ++ later) id) =
      resultOf (overridesAfter (events ++ later') n) (helperEvents (events ++ later') id) := by
  have agree : ∀ {β : Type} {f : Event α → Option β}, (∀ e, e.completes = true → f e = none) →
      later.filterMap f = later'.filterMap f := by
    intro β f silent
    rw [← filterMap_of_filter silent later, same, filterMap_of_filter silent later']
  have created : later.filterMap Event.created? = later'.filterMap Event.created? :=
    agree fun e => by cases e <;> simp [Event.completes, Event.created?]
  have installed : later.filterMap (·.installed? n) = later'.filterMap (·.installed? n) :=
    agree fun e => by cases e <;> simp [Event.completes, Event.installed?]
  have watched : later.filterMap (·.watched? id) = later'.filterMap (·.watched? id) :=
    agree fun e => by cases e <;> simp [Event.completes, Event.watched?]
  simp only [overridesAfter, createdLeader, lastOf, helperEvents, List.filterMap_append, created,
    installed, watched]

theorem reordered (ran : ({} : Sessions α).run events = some (s, record)) {t' : Sessions α}
    {told' : List (Entry α)} (ranLater : s.run later = some (t, told))
    (ranLater' : s.run later' = some (t', told'))
    (same : later.filter (!·.completes) = later'.filter (!·.completes))
    (calls : ∀ k, .call k ∈ later → .call k ∈ later') (called : .called n id report context ∈ told)
    (unset : ∀ parameters, .override n parameters ∉ later) : ∃ report',
      .called n id report' context ∈ told' ∧ report'.parameters = report.parameters := by
  obtain ⟨k, member, about⟩ := (called_iff ranLater).1 ⟨report, called⟩
  have made : t'.made = t.made := by
    rw [made_run ranLater, made_run ranLater', ← foldl_extend_filter later', ← same,
      foldl_extend_filter]
  obtain ⟨report', called'⟩ := (called_iff ranLater').2 ⟨k, calls k member, made ▸ about⟩
  have unset' : ∀ parameters, .override n parameters ∉ later' := by
    intro parameters inside
    have kept : .override n parameters ∈ later'.filter (!·.completes) :=
      List.mem_filter.2 ⟨inside, rfl⟩
    rw [← same] at kept
    exact unset parameters (List.mem_of_mem_filter kept)
  refine ⟨report', called', ?_⟩
  rw [parameters_of_later ran ranLater called unset,
    parameters_of_later ran ranLater' called' unset', resultOf_reordered same]

/-- What there is to say of what collections are made from, after any run. -/
structure Provenance (events : List (Event α)) (s : Sessions α) (record : List (Entry α)) :
    Prop where
  /-- The helper is launched with the identity of that moment, and nothing later changes it. -/
  started : ∀ n id context, .started n id context ∈ record → ∃ before spawn after words child job,
    events = before ++ .collect n context spawn :: after ∧ id = jobsAfter before + 1 ∧
      CommandLine.split (commandAfter before n) = .ok words ∧ spawn words = .ok ((), child) ∧
        s.job? id = some job ∧ job.launch = (some (commandAfter before n), some child)
  refused : ∀ n id, .refused n id ∈ record → ∃ before context spawn after job,
    events = before ++ .collect n context spawn :: after ∧ id = jobsAfter before + 1 ∧
      ¬Job.CanStart spawn (commandAfter before n) ∧
        s.job? id = some job ∧ job.launch = (some (commandAfter before n), none)
  /-- One version of the overrides goes into the result, and of the run nothing else but what the
  helper has done. -/
  called : ∀ n id report context, .called n id report context ∈ record →
    ∃ before k after, events = before ++ .call k :: after ∧ s.made.2[k]? = some (n, id, context) ∧
      report.parameters = resultOf (overridesAfter before n) (helperEvents before id) ∧
      ∃ text : String,
        (∀ sent delivered, (Delivery.start sent).run (helperEvents before id) = some delivered →
          text = decodeLines (sent .output)) ∧
        ((.reapFault ∈ helperEvents before id ∧ report.parameters = none) ∨
          (.reapFault ∉ helperEvents before id ∧ ∃ how, .helperEnds how ∈ helperEvents before id ∧
            report.parameters = if how.isSuccess then
              some ((overridesAfter before n).mergeInto text) else none))
  /-- Collections that could complete in one order can complete in any other. -/
  exchanged : ∀ (ks ks' : List Nat) t told, ks.Perm ks' →
    s.run (ks.flatMap completion) = some (t, told) →
    ∃ told', s.run (ks'.flatMap completion) = some (t, told') ∧ told.Perm told'
  /-- Runs that go on alike but for their completions deliver the same. -/
  reordered : ∀ later later' t t' told told', s.run later = some (t, told) →
    s.run later' = some (t', told') →
    later.filter (!·.completes) = later'.filter (!·.completes) →
    (∀ k, .call k ∈ later → .call k ∈ later') →
    ∀ n id report context, .called n id report context ∈ told →
      (∀ parameters, .override n parameters ∉ later) → ∃ report',
        .called n id report' context ∈ told' ∧ report'.parameters = report.parameters

theorem commandAfter_eq (settled : Settled events s) (n : Nat) :
    (s.leader n).command = commandAfter events n := by
  have settings := settled.settings n
  simp only [Leader.settings, settingsAfter, Prod.mk.injEq] at settings
  rw [Leader.command, settings.1, settings.2.1, commandAfter]

theorem provenance (ran : ({} : Sessions α).run events = some (s, record)) :
    Provenance events s record where
  started := by
    intro n id context member
    obtain ⟨before, e, after, mid, first, next, added, more, rfl, ran', st, inside, rest⟩ :=
      exists_of_mem_record ran member
    have traced := Traced.of_run ran'
    have settled := Settled.of_run ran'
    obtain ⟨spawn, words, child, job, rfl, rfl, splits, spawned, found, given, running⟩ :=
      collect_of_started traced.reached st inside
    obtain ⟨later, found', launch⟩ := launch_run (traced.reached.step st) rest found
    rw [commandAfter_eq settled] at splits given
    refine ⟨before, spawn, after, words, child, later, rfl, by rw [settled.jobs], splits, spawned,
      found', ?_⟩
    rw [launch, Job.launch, given, running]
    rfl
  refused := by
    intro n id member
    obtain ⟨before, e, after, mid, first, next, added, more, rfl, ran', st, inside, rest⟩ :=
      exists_of_mem_record ran member
    have traced := Traced.of_run ran'
    have settled := Settled.of_run ran'
    obtain ⟨context, spawn, job, rfl, rfl, cannot, found, given, running⟩ :=
      collect_of_refused traced.reached st inside
    obtain ⟨later, found', launch⟩ := launch_run (traced.reached.step st) rest found
    rw [commandAfter_eq settled] at cannot given
    refine ⟨before, context, spawn, after, later, rfl, by rw [settled.jobs], cannot, found', ?_⟩
    rw [launch, Job.launch, given, running]
    rfl
  called := by
    intro n id report context member
    obtain ⟨before, e, after, mid, first, next, added, more, rfl, ran', st, inside, rest⟩ :=
      exists_of_mem_record ran member
    have traced := Traced.of_run ran'
    obtain ⟨k, c, rfl, here, about, same, parameters⟩ :=
      traced.parameters_of_called (Settled.of_run ran') st inside
    obtain ⟨-, r, -, -, seen, done⟩ :=
      (traced.step st).exists_watch (List.mem_append_right _ inside)
    rw [same] at seen
    have place := made_of_run (run_trans (run_single st) rest) here
    refine ⟨before, k, after, rfl, about ▸ place, parameters, ?_⟩
    rw [parameters]
    exact resultOf_cases (traced.unasked id) seen done
  exchanged := fun ks ks' t told perm =>
    run_completions_perm perm (Traced.of_run ran).reached
  reordered := fun later later' t t' told told' ran' ran'' same calls n id report context =>
    Sessions.reordered ran ran' ran'' same calls

/-- Two collections of one leader, which is given another identity between their starts. The second
is reported first, and the overrides are replaced between the steps of its completion and after. -/
def overlappingEvents : List (Event Nat) :=
  let spawn := fun _ => .ok ((), { process := 1, output := 2, diagnostics := 3 })
  [.create {}, .override 0 [⟨"a", .text "x"⟩], .identify 0 { uid := 7, pid := 8 },
    .collect 0 10 spawn, .identify 0 { uid := 9 }, .collect 0 11 spawn,
    .watch 2 (.read .output Attempt.localLine)] ++ endsAtOnce 2 ++
    [.complete 1, .override 0 [⟨"b", .text "y"⟩], .call 1, .override 0 [⟨"is-local", .text "z"⟩],
      .watch 1 (.read .output Attempt.localLine)] ++ endsAtOnce 1 ++ [.complete 0, .call 0]

def overlappingRecord : List (Entry Nat) :=
  [.started 0 1 10, .started 0 2 11, .removed 0 2,
    .called 0 2 ⟨some ⟨[⟨"is-local", .boolean true⟩, ⟨"b", .text "y"⟩]⟩, { uid := 9 }, false⟩ 11,
    .removed 0 1, .called 0 1 ⟨some ⟨[⟨"is-local", .text "z"⟩]⟩, { uid := 9 }, false⟩ 10]

theorem provenance_overlapping : ∃ s,
    ({} : Sessions Nat).run overlappingEvents = some (s, overlappingRecord) ∧
      (s.job? 1).bind (·.command) = some (Config.default.helperCommand 7 8) ∧
        Provenance overlappingEvents s overlappingRecord := by
  have told : (({} : Sessions Nat).run overlappingEvents).map
      (fun r => (r.2, (r.1.job? 1).bind (·.command))) =
        some (overlappingRecord, some (Config.default.helperCommand 7 8)) := rfl
  obtain ⟨⟨s, record⟩, ran, same⟩ := Option.map_eq_some_iff.1 told
  obtain ⟨rfl, command⟩ := Prod.mk.inj same
  exact ⟨s, ran, command, provenance ran⟩

end Sessions

end LoginSession

import LoginSession.Proofs.Replay

namespace LoginSession

namespace Sessions

variable {α : Type} {s t next final : Sessions α} {record added told : List (Entry α)} {e : Event α}
  {events later : List (Event α)} {n id k : Nat} {c : Collection α} {context : α} {report : Report}

def completion (k : Nat) : List (Event α) := [.complete k, .call k]

def conclude (s : Sessions α) (k : Nat) (c : Collection α) : Sessions α :=
  let leader := { s.leader c.leader with pending := (s.leader c.leader).pending.erase c.job }
  (s.setLeader c.leader leader).setCollection k
    { c with claimed := true, ending := .called (s.report c) }

theorem collections_conclude (s : Sessions α) (k : Nat) (c : Collection α) :
    (s.conclude k c).collections =
      s.collections.set k { c with claimed := true, ending := .called (s.report c) } := rfl

/-- The collection can be taken off its leader's list and be reported. -/
structure Completes (s : Sessions α) (k : Nat) (c : Collection α) : Prop where
  here : s.collections[k]? = some c
  waiting : c.ending = .waiting
  unclaimed : c.claimed = false
  done : s.isJobFinished c.job = true
  inFlight : s.InFlight c

theorem report_congr (jobs : next.jobs = s.jobs)
    (settings : (next.leader c.leader).settings = (s.leader c.leader).settings)
    (cancelled : (next.leader c.leader).cancelled = (s.leader c.leader).cancelled) :
    next.report c = s.report c := by
  simp only [Leader.settings, Prod.mk.injEq] at settings
  simp only [Sessions.report, job?, jobs, cancelled, settings.2.1]
  rw [Leader.result_congr settings.2.2]

namespace Completes

theorem known (h : s.Completes k c) : c.leader < s.leaders.length := lt_of_mem_pending h.inFlight

theorem leader_conclude (h : s.Completes k c) (m : Nat) : (s.conclude k c).leader m =
    { s.leader m with
      pending :=
        if m = c.leader then (s.leader m).pending.erase c.job else (s.leader m).pending } :=
  leader_remove (if_pos h.inFlight) k _ m

theorem report_conclude (h : s.Completes k c) (d : Collection α) :
    (s.conclude k c).report d = s.report d :=
  report_congr rfl (by rw [h.leader_conclude]; rfl) (by rw [h.leader_conclude])

theorem run_completion (h : s.Completes k c) : s.run (completion k) =
    some (s.conclude k c,
      [.removed c.leader c.job, .called c.leader c.job (s.report c) c.context]) := by
  let leader := { s.leader c.leader with pending := (s.leader c.leader).pending.erase c.job }
  let claimed : Sessions α :=
    (s.setLeader c.leader leader).setCollection k { c with claimed := true }
  have waits : s.waiting? k = some c := by simp [waiting?, h.here, h.waiting, h.unclaimed, h.done]
  have removed : (s.leader c.leader).remove? c.job = some leader := if_pos h.inFlight
  have first : s.step (.complete k) = some (claimed, [.removed c.leader c.job]) := by
    simp [Sessions.step, waits, complete, removed, claimed]
  have place := (List.getElem?_eq_some_iff.1 h.here).1
  have there : claimed.collections[k]? = some { c with claimed := true } :=
    List.getElem?_set_self place
  have due : claimed.due? k = some { c with claimed := true } := by simp [due?, there, h.waiting]
  have same : claimed.report { c with claimed := true } = s.report c := by
    refine report_congr (s := s) rfl ?_ ?_
    · rw [leader_remove removed]
      rfl
    · rw [leader_remove removed]
  have second : claimed.step (.call k) =
      some (s.conclude k c, [.called c.leader c.job (s.report c) c.context]) := by
    rw [Sessions.step, due, Option.map_some, same, call, same]
    simp only [conclude, claimed, setCollection, setLeader, List.set_set, leader]
  exact run_trans (run_single first) (run_single second)

end Completes

theorem exists_of_run_completion (ran : s.run (completion k) = some (t, told)) :
    ∃ c, s.Completes k c ∧ t = s.conclude k c ∧
      told = [.removed c.leader c.job, .called c.leader c.job (s.report c) c.context] := by
  obtain ⟨mid, first, _, st, rest, -⟩ := exists_of_run_cons ran
  obtain ⟨_, _, _, st', -, -⟩ := exists_of_run_cons rest
  obtain ⟨c, h⟩ : ∃ c, s.Completes k c := by
    cases moves_of_step st with
    | @remove _ c _ here waiting unclaimed done removed =>
      exact ⟨c, here, waiting, unclaimed, done, (Leader.eq_of_remove? removed).1⟩
    | drop here waiting unclaimed done gone =>
      -- a collection that has been dropped is not there to be called
      cases moves_of_step st' with
      | call there waits _ =>
        rw [setCollection, List.getElem?_set_self (List.getElem?_eq_some_iff.1 here).1] at there
        obtain rfl := Option.some.inj there
        cases waits
  rw [h.run_completion] at ran
  cases ran
  exact ⟨c, h, rfl, rfl⟩

section

variable {k' : Nat} {c' : Collection α}

theorem Accounted.job_ne (h : Accounted s record) (here : s.collections[k]? = some c)
    (here' : s.collections[k']? = some c') (other : k ≠ k') : c.job ≠ c'.job := by
  intro same
  have bound : k < (s.collections.map (·.job)).length := by
    rw [List.length_map]
    exact (List.getElem?_eq_some_iff.1 here).1
  refine other ((List.getElem?_inj bound h.distinct).1 ?_)
  rw [List.getElem?_map, List.getElem?_map, here, here', Option.map_some, Option.map_some, same]

theorem Completes.exchange (reached : Reached s record) (h : s.Completes k c)
    (h' : (s.conclude k c).Completes k' c') :
    k ≠ k' ∧ s.Completes k' c' ∧ (s.conclude k' c').Completes k c := by
  have place := (List.getElem?_eq_some_iff.1 h.here).1
  have other : k ≠ k' := by
    rintro rfl
    have now := h'.here
    rw [collections_conclude, List.getElem?_set_self place] at now
    obtain rfl := Option.some.inj now
    cases h'.waiting
  have here' : s.collections[k']? = some c' := by
    rw [← h'.here, collections_conclude, List.getElem?_set_ne other]
  have apart := (Accounted.of_reached reached).job_ne h.here here' other
  have before : s.Completes k' c' := by
    refine ⟨here', h'.waiting, h'.unclaimed, h'.done, ?_⟩
    have inside := h'.inFlight
    rw [InFlight, h.leader_conclude] at inside
    dsimp only at inside
    split at inside
    · exact List.mem_of_mem_erase inside
    · exact inside
  refine ⟨other, before, ?_, h.waiting, h.unclaimed, h.done, ?_⟩
  · rw [collections_conclude, List.getElem?_set_ne other.symm]
    exact h.here
  · rw [InFlight, before.leader_conclude]
    dsimp only
    split
    · exact (List.mem_erase_of_ne apart).2 h.inFlight
    · exact h.inFlight

theorem leaders_ext (length : next.leaders.length = s.leaders.length)
    (same : ∀ m, next.leader m = s.leader m) : next.leaders = s.leaders := by
  refine List.ext_getElem length fun m known known' => ?_
  have := same m
  rwa [leader, leader, List.getElem?_eq_getElem known, List.getElem?_eq_getElem known'] at this

theorem eq_of_parts (jobs : next.jobs = s.jobs) (leaders : next.leaders = s.leaders)
    (collections : next.collections = s.collections)
    (cancellations : next.cancellations = s.cancellations) : next = s := by
  cases next
  cases s
  simp_all

theorem Completes.conclude_comm (h : s.Completes k c) (h' : s.Completes k' c') (other : k ≠ k')
    (later : (s.conclude k c).Completes k' c') (later' : (s.conclude k' c').Completes k c) :
    (s.conclude k c).conclude k' c' = (s.conclude k' c').conclude k c := by
  refine eq_of_parts rfl (leaders_ext ?_ fun m => ?_) ?_ rfl
  · simp [conclude, setCollection, setLeader]
  · rw [later.leader_conclude, later'.leader_conclude, h.leader_conclude, h'.leader_conclude]
    by_cases mine : m = c.leader <;> by_cases mine' : m = c'.leader
    · simp only [if_pos mine, if_pos mine', List.erase_comm]
    · simp only [if_pos mine, if_neg mine']
    · simp only [if_neg mine, if_pos mine']
    · simp only [if_neg mine, if_neg mine']
  · simp only [collections_conclude, h.report_conclude, h'.report_conclude]
    exact List.set_comm _ _ other

/-- Two completions can change places: the sessions come to the same state, and the same is reported
of either. -/
theorem run_completion_swap (reached : Reached s record)
    (ran : s.run (completion k ++ completion k') = some (t, told)) : ∃ told',
      s.run (completion k' ++ completion k) = some (t, told') ∧ told.Perm told' := by
  obtain ⟨mid, first, second, ran₁, ran₂, rfl⟩ := exists_of_run_append ran
  obtain ⟨c, h, rfl, rfl⟩ := exists_of_run_completion ran₁
  obtain ⟨c', h', rfl, rfl⟩ := exists_of_run_completion ran₂
  obtain ⟨other, before, after⟩ := h.exchange reached h'
  have swapped := run_trans before.run_completion after.run_completion
  rw [← h.conclude_comm before other h' after, before.report_conclude] at swapped
  refine ⟨_, swapped, ?_⟩
  rw [h.report_conclude]
  exact List.perm_append_comm

theorem run_completions_perm {ks ks' : List Nat} (perm : ks.Perm ks') (reached : Reached s record)
    (ran : s.run (ks.flatMap completion) = some (t, told)) : ∃ told',
      s.run (ks'.flatMap completion) = some (t, told') ∧ told.Perm told' := by
  induction perm generalizing s record t told with
  | nil => exact ⟨told, ran, .refl _⟩
  | cons k _ ih =>
    rw [List.flatMap_cons] at ran ⊢
    obtain ⟨mid, first, more, ran₁, ran₂, rfl⟩ := exists_of_run_append ran
    obtain ⟨more', ran', perm⟩ := ih (reached.run ran₁) ran₂
    exact ⟨_, run_trans ran₁ ran', perm.append_left _⟩
  | swap k k' ks =>
    rw [List.flatMap_cons, List.flatMap_cons, ← List.append_assoc] at ran ⊢
    obtain ⟨mid, first, more, ran₁, ran₂, rfl⟩ := exists_of_run_append ran
    obtain ⟨first', ran', perm⟩ := run_completion_swap reached ran₁
    exact ⟨_, run_trans ran' ran₂, perm.append_right _⟩
  | trans _ _ ih ih' =>
    obtain ⟨told', ran', perm⟩ := ih reached ran
    obtain ⟨told'', ran'', perm'⟩ := ih' reached ran'
    exact ⟨told'', ran'', perm.trans perm'⟩

end

def Event.completes : Event α → Bool
  | .complete _ | .call _ => true
  | _ => false

def made (s : Sessions α) : Nat × List (Nat × Nat × α) :=
  (s.jobs.length, s.collections.map fun c => (c.leader, c.job, c.context))

def Event.extend (made : Nat × List (Nat × Nat × α)) : Event α → Nat × List (Nat × Nat × α)
  | .newJob _ => (made.1 + 1, made.2)
  | .collect n context _ => (made.1 + 1, made.2 ++ [(n, made.1 + 1, context)])
  | _ => made

theorem made_step (st : s.step e = some (next, added)) : next.made = e.extend s.made := by
  cases moves_of_step st with
  | newJob | start _ | refuse _ =>
    simp [made, Event.extend, Sessions.newJob, started, refused, setJob, setLeader, addCollection]
  | watch _ _ _ | terminate _ _ _ _ => exact Prod.ext (List.length_map _) rfl
  | remove here _ _ _ _ | drop here _ _ _ _ | call here _ _ =>
    exact Prod.ext rfl (map_set_of_eq _ here rfl)
  | create _ _ | identify _ | override _ | flag _ | cancel _ | proceed _ _ _ => rfl

theorem made_run (ran : s.run events = some (final, told)) :
    final.made = events.foldl Event.extend s.made := by
  induction events generalizing s told with
  | nil =>
    cases ran
    rfl
  | cons e events ih =>
    obtain ⟨next, added, more, st, rest, rfl⟩ := exists_of_run_cons ran
    rw [List.foldl_cons, ← made_step st]
    exact ih rest

theorem exists_foldl_extend (events : List (Event α)) (made : Nat × List (Nat × Nat × α)) :
    ∃ more, (events.foldl Event.extend made).2 = made.2 ++ more := by
  induction events generalizing made with
  | nil => exact ⟨[], (List.append_nil _).symm⟩
  | cons e events ih =>
    obtain ⟨more, same⟩ := ih (e.extend made)
    rw [List.foldl_cons, same]
    cases e with
    | collect n context _ => exact ⟨_, List.append_assoc ..⟩
    | create | identify | override | newJob | watch | complete | call | flag | cancel | terminate
    | proceed => exact ⟨more, rfl⟩

theorem made_of_run (ran : s.run events = some (final, told)) (here : s.collections[k]? = some c) :
    final.made.2[k]? = some (c.leader, c.job, c.context) := by
  obtain ⟨more, same⟩ := exists_foldl_extend events s.made
  rw [made_run ran, same, List.getElem?_append_left, made, List.getElem?_map, here]
  · rfl
  · simpa [made] using (List.getElem?_eq_some_iff.1 here).1

theorem called_iff (ran : s.run events = some (final, told)) :
    (∃ report, .called n id report context ∈ told) ↔
      ∃ k, .call k ∈ events ∧ final.made.2[k]? = some (n, id, context) := by
  constructor
  · rintro ⟨report, called⟩
    obtain ⟨before, e, after, mid, _, next, added, more, rfl, -, st, inside, rest⟩ :=
      exists_of_mem_record ran called
    cases moves_of_step st with
    | @call k c here _ _ =>
      simp only [List.mem_singleton, Entry.called.injEq] at inside
      obtain ⟨rfl, rfl, -, rfl⟩ := inside
      refine ⟨k, by simp, ?_⟩
      have place := (List.getElem?_eq_some_iff.1 here).1
      exact made_of_run (c := { c with ending := .called (mid.report c) }) rest
        (List.getElem?_set_self place)
    | create _ _ | identify _ | override _ | newJob | start _ | refuse _ | watch _ _ _
    | remove _ _ _ _ _ | drop _ _ _ _ _ | flag _ | cancel _ | terminate _ _ _ _ | proceed _ _ _ =>
      simp at inside
  · rintro ⟨k, member, about⟩
    obtain ⟨before, after, rfl⟩ := List.append_of_mem member
    obtain ⟨mid, first, more, -, ran', rfl⟩ := exists_of_run_append ran
    obtain ⟨next, added, rest, st, ran'', rfl⟩ := exists_of_run_cons ran'
    cases moves_of_step st with
    | @call _ c here _ _ =>
      have same := made_of_run ran' here
      rw [about] at same
      obtain ⟨rfl, rfl, rfl⟩ := by simpa using same
      exact ⟨mid.report c, by simp⟩

end Sessions

end LoginSession

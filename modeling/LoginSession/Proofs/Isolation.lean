import LoginSession.Proofs.Management
import LoginSession.Proofs.Projection

namespace LoginSession

theorem placeOf_of_grown {owners more : List Nat} (grown : owners <+: more) {k : Nat}
    (known : k ≤ owners.length) (n : Nat) : placeOf more n k = placeOf owners n k := by
  obtain ⟨rest, rfl⟩ := grown
  rw [placeOf, List.take_append_of_le_length known, placeOf]

theorem filter_eq_singleton {β γ : Type} [DecidableEq γ] {f : β → γ} {xs : List β} {x : β}
    (unique : (xs.map f).Nodup) (member : x ∈ xs) : xs.filter (f · = f x) = [x] := by
  obtain ⟨front, back, rfl⟩ := List.append_of_mem member
  rw [List.map_append, List.map_cons] at unique
  have apart := (List.nodup_cons.1 (List.nodup_middle.1 unique)).1
  rw [← List.map_append] at apart
  have others : ∀ y ∈ front ++ back, f y ≠ f x := fun y there same =>
    apart (same ▸ List.mem_map_of_mem there)
  rw [List.forall_mem_append] at others
  rw [List.filter_append, List.filter_cons_of_pos (by simp),
    List.filter_eq_nil_iff.2 (by simpa using others.1),
    List.filter_eq_nil_iff.2 (by simpa using others.2), List.nil_append]

theorem Sessions.Moves.owners_grown {α : Type} {s next : Sessions α} {e : Sessions.Event α}
    {added : List (Sessions.Entry α)} (moves : s.Moves e next added) :
    s.cancellations.map (·.leader) <+: next.cancellations.map (·.leader) := by
  cases moves with
  | cancel _ => exact ⟨_, (List.map_append ..).symm⟩
  | terminate here _ _ _ | proceed here _ _ =>
    exact ⟨[], (List.append_nil _).trans (Eq.symm (map_set_of_eq _ here rfl))⟩
  | create _ _ | identify _ | override _ | newJob | start _ | refuse _ | watch _ _ _
  | remove _ _ _ _ _ | drop _ _ _ _ _ | call _ _ _ | flag _ => exact List.prefix_rfl

theorem Sessions.only_newLeader {α : Type} {s : Sessions α} {record : List (Sessions.Entry α)}
    (reached : Sessions.Reached s record) (ρ : Renaming) (l : Leader) :
    (s.newLeader l).1.only ρ s.leaders.length = { leaders := [l.renamed ρ []] } := by
  have collections : (s.newLeader l).1.collectionsOf s.leaders.length = [] := by
    refine List.filter_eq_nil_iff.2 fun c member => ?_
    simpa using Nat.ne_of_lt (reached.made c member).1
  have cancellations : (s.newLeader l).1.cancellationsOf s.leaders.length = [] := by
    refine List.filter_eq_nil_iff.2 fun c member => ?_
    have flagged := (Sessions.Managed.of_reached reached).flagged c member
    have known : c.leader < s.leaders.length := by
      refine Nat.lt_of_not_le fun beyond => ?_
      rw [s.leader_of_le beyond] at flagged
      cases flagged
    simpa using Nat.ne_of_lt known
  have leader := s.leader_newLeader l s.leaders.length
  rw [if_pos rfl] at leader
  simp only [only, jobsOf, collections, cancellations, leader]
  rfl

namespace Closing.Stage

theorem renumbered_of_grown {owners more : List Nat} (grown : owners <+: more) {stage : Stage}
    (known : ∀ j, stage = .cancelling j → j ≤ owners.length) (n : Nat) :
    stage.renumbered more n = stage.renumbered owners n := by
  cases stage with
  | cancelling j => exact congrArg cancelling (placeOf_of_grown grown (known j rfl) n)
  | removed | flagged | returned => rfl

end Closing.Stage

namespace Manager

variable {α : Type} {m next final : Manager α} {record added told : List Entry} {e e' : Event α}
  {events : List (Event α)} {ρ : Renaming} {n k place : Nat} {c : Closing}

theorem Moves.owners_grown (moves : m.Moves e next added) :
    m.sessions.cancellations.map (·.leader) <+: next.sessions.cancellations.map (·.leader) := by
  rcases moves.sessions with same | ⟨_, _, st⟩
  · exact same ▸ List.prefix_rfl
  · exact (Sessions.moves_of_step st).owners_grown

theorem Moves.config (moves : m.Moves e next added) :
    next.registry.config = m.registry.config := by
  cases moves <;> rfl

theorem Reached.cancels (reached : Reached m record) : ∀ c ∈ m.closings, ∀ j,
    c.stage = .cancelling j → ∃ a, m.sessions.cancellations[j]? = some a ∧
      m.places[c.leader]? = some a.leader := by
  induction reached with
  | start _ => simp
  | @step m next record added e before st ih =>
    have moves := moves_of_step st
    have old : ∀ c ∈ m.closings, ∀ j, c.stage = .cancelling j →
        ∃ a, next.sessions.cancellations[j]? = some a ∧
          next.places[c.leader]? = some a.leader := by
      intro c member j stage
      obtain ⟨a, here, there⟩ := ih c member j stage
      have still := moves.places there
      rcases moves.sessions with same | ⟨_, _, st⟩
      · exact ⟨a, same ▸ here, still⟩
      · obtain ⟨b, now, same⟩ := (Sessions.moves_of_step st).cancellation here
        exact ⟨b, now, still.trans (congrArg some (congrArg Prod.fst same).symm)⟩
    intro c member j stage
    cases moves with
    | elsewhere _ | opened _ | refused _ | missed _ | get | getOrError | count | cookies =>
      exact old c member j stage
    | removed _ =>
      rcases List.mem_append.1 member with before | new
      · exact old c before j stage
      · rw [List.mem_singleton.1 new] at stage
        cases stage
    | flag _ _ _ _ | finish _ _ _ _ =>
      rcases List.mem_or_eq_of_mem_set member with before | rfl
      · exact old c before j stage
      · cases stage
    | cancel _ _ there cancelled =>
      rcases List.mem_or_eq_of_mem_set member with before | rfl
      · exact old c before j stage
      · obtain rfl := Closing.Stage.cancelling.inj stage
        cases Sessions.moves_of_step cancelled with
        | cancel _ => exact ⟨_, List.getElem?_concat_length, there⟩

theorem only_of_none (unopened : m.places[n]? = none) :
    m.only ρ n = { registry := { config := m.registry.config } } := by
  rw [only, unopened]

theorem only_of_some (there : m.places[n]? = some place) : m.only ρ n =
    { sessions := m.sessions.only ρ place
      registry := {
        config := m.registry.config
        entries := (m.registry.entries.filter (·.2 = n)).map fun (cookie, _) => (ρ.cookie cookie, 0)
        opened := 1 }
      places := [0]
      closings := (m.closings.filter (·.leader = n)).map
        (·.renamed ρ (m.sessions.cancellations.map (·.leader)) place) } := by
  rw [only, there]

theorem only_of_parts {sessions : Sessions α} {entries : List (String × Nat)}
    {closings : List Closing} (there : m.places[n]? = some place)
    (own : m.sessions.only ρ place = sessions)
    (registered : m.registry.entries.filter (·.2 = n) = entries)
    (closed : m.closings.filter (·.leader = n) = closings) : m.only ρ n =
      { sessions
        registry := {
          config := m.registry.config
          entries := entries.map fun (cookie, _) => (ρ.cookie cookie, 0)
          opened := 1 }
        places := [0]
        closings := closings.map
          (·.renamed ρ (m.sessions.cancellations.map (·.leader)) place) } := by
  rw [only_of_some there, own, registered, closed]

theorem Invariant.renamed (h : Invariant m record) (moves : m.Moves e next added)
    (member : c ∈ m.closings) (ρ : Renaming) (place : Nat) :
    c.renamed ρ (next.sessions.cancellations.map (·.leader)) place =
      c.renamed ρ (m.sessions.cancellations.map (·.leader)) place := by
  have stage : c.stage.renumbered (next.sessions.cancellations.map (·.leader)) place =
      c.stage.renumbered (m.sessions.cancellations.map (·.leader)) place := by
    refine Closing.Stage.renumbered_of_grown moves.owners_grown (fun j stage => ?_) place
    obtain ⟨_, here⟩ := h.cancelling c member j stage
    rw [List.length_map]
    exact Nat.le_of_lt (List.getElem?_eq_some_iff.1 here).1
  rw [Closing.renamed, stage, Closing.renamed]

theorem Invariant.closings_renamed (h : Invariant m record) (moves : m.Moves e next added)
    (ρ : Renaming) (n place : Nat) : (m.closings.filter (·.leader = n)).map
        (·.renamed ρ (next.sessions.cancellations.map (·.leader)) place) =
      (m.closings.filter (·.leader = n)).map
        (·.renamed ρ (m.sessions.cancellations.map (·.leader)) place) :=
  List.map_congr_left fun _ member => h.renamed moves (List.mem_filter.1 member).1 ρ place

theorem only_congr (h : Invariant m record) (moves : m.Moves e next added)
    (places : next.places[n]? = m.places[n]?)
    (sessions : ∀ place, m.places[n]? = some place →
      next.sessions.only ρ place = m.sessions.only ρ place)
    (entries : next.registry.entries.filter (·.2 = n) = m.registry.entries.filter (·.2 = n))
    (closings : next.closings.filter (·.leader = n) = m.closings.filter (·.leader = n)) :
    next.only ρ n = m.only ρ n := by
  cases there : m.places[n]? with
  | none => rw [only_of_none there, only_of_none (places.trans there), moves.config]
  | some place =>
    rw [only_of_some there, only_of_parts (places.trans there) (sessions place there) entries
      closings, moves.config, h.closings_renamed moves]

theorem getElem?_concat_of_ne {β : Type} {xs : List β} {x : β} (other : n ≠ xs.length) :
    (xs ++ [x])[n]? = xs[n]? := by
  refine Option.ext fun y => ?_
  simp [getElem?_concat_eq_some_iff, other]

theorem mem_entries {r : Registry} {cookie : String} (found : r.find? cookie = some k) :
    (cookie, k) ∈ r.entries := by
  obtain ⟨front, back, entries, -⟩ := List.lookup_eq_some_iff.1 found
  simp [entries]

theorem filter_without_of_ne {r : Registry} {cookie : String} (unique : r.cookies.Nodup)
    (found : r.find? cookie = some k) (other : k ≠ n) :
    (r.without cookie).entries.filter (·.2 = n) = r.entries.filter (·.2 = n) := by
  rw [Registry.without, List.filter_filter]
  refine List.filter_congr fun entry member => ?_
  by_cases mine : entry.2 = n
  · -- a cookie has one entry, and the one of this cookie is another session's
    have apart : entry.1 ≠ cookie := fun same => other <| by
      rw [← mine, ← List.inj_on_of_nodup_map unique (mem_entries found) member same.symm]
    simp [mine, apart]
  · simp [mine]

theorem place_ne_of_ne (h : Invariant m record) {k place' : Nat} (other : k ≠ n)
    (there : m.places[n]? = some place) (there' : m.places[k]? = some place') : place' ≠ place := by
  rintro rfl
  obtain ⟨bound, same⟩ := List.getElem?_eq_some_iff.1 there
  obtain ⟨bound', same'⟩ := List.getElem?_eq_some_iff.1 there'
  exact other (h.placed.apart.getElem_inj_iff.1 (same'.trans same.symm))

theorem undisturbed (h : Invariant m record) (moves : m.Moves e next added)
    (other : m.ownEvent ρ n e = none) (there : m.places[n]? = some place) :
    m.sessions.Undisturbed next.sessions place := by
  obtain ⟨_, reached⟩ := h.reached
  have known := h.placed.known place (List.mem_of_getElem? there)
  cases moves with
  | elsewhere st =>
    rw [ownEvent, there, Option.bind_some, Option.map_eq_none_iff] at other
    exact Sessions.undisturbed reached known other st
  | @opened cookie request _ =>
    exact Sessions.undisturbed (ρ := ρ) (e := .create (m.registry.leaderFor cookie request)) reached
      known rfl rfl
  | @flag _ place' _ _ _ here _ there' st =>
    have apart := place_ne_of_ne h (ne_of_placeOf? here other) there there'
    exact Sessions.undisturbed (ρ := ρ) (e := .flag place') reached known (if_neg apart) st
  | @cancel _ place' _ _ _ here _ there' st =>
    have apart := place_ne_of_ne h (ne_of_placeOf? here other) there there'
    exact Sessions.undisturbed (ρ := ρ) (e := .cancel place') reached known (if_neg apart) st
  | refused _ | removed _ | missed _ | finish _ _ _ _ | get | getOrError | count | cookies =>
    exact .refl _ _

theorem places_of_other (h : Invariant m record) (moves : m.Moves e next added)
    (other : m.ownEvent ρ n e = none) : next.places[n]? = m.places[n]? := by
  cases moves with
  | opened free =>
    have apart : m.registry.opened ≠ n := fun same => by simp [ownEvent, same, free] at other
    exact getElem?_concat_of_ne fun last => apart (h.placed.numbered.symm.trans last.symm)
  | elsewhere _ | refused _ | removed _ | missed _ | flag _ _ _ _ | cancel _ _ _ _
  | finish _ _ _ _ | get | getOrError | count | cookies => rfl

theorem view_of_other (h : Invariant m record) (moves : m.Moves e next added)
    (other : m.ownEvent ρ n e = none) : next.view n = m.view n := by
  rw [view, places_of_other h moves other, view]
  cases there : m.places[n]? with
  | none => rfl
  | some place => exact congrArg some (undisturbed h moves other there).view

theorem only_of_other (h : Invariant m record) (moves : m.Moves e next added)
    (other : m.ownEvent ρ n e = none) : next.only ρ n = m.only ρ n := by
  have places := places_of_other h moves other
  have sessions := fun place (there : m.places[n]? = some place) =>
    (undisturbed h moves other there).only ρ
  have congr := only_congr h moves places sessions
  cases moves with
  | opened free =>
    have apart : m.registry.opened ≠ n := fun same => by simp [ownEvent, same, free] at other
    exact congr (filter_concat_other (f := Prod.snd) apart) rfl
  | @removed cookie k taken =>
    have apart : k ≠ n := fun same => by simp [ownEvent, same, taken] at other
    exact congr (filter_without_of_ne h.books.unique taken apart)
      (filter_concat_other (f := Closing.leader) apart)
  | flag here _ _ _ | cancel here _ _ _ | finish here _ _ _ =>
    exact congr rfl
      (filter_set_other (f := Closing.leader) here (ne_of_placeOf? here other) rfl)
  | elsewhere _ | refused _ | missed _ | get | getOrError | count | cookies => exact congr rfl rfl

theorem step_open (h : Invariant m record) {cookie : String} {request : OpenRequest}
    (session : ρ.session (Registry.sessionId n) = Registry.sessionId 0)
    (next_opened : m.registry.opened = n) (free : m.registry.find? cookie = none)
    (st : m.step (.openSession cookie request) = some (next, added)) : ∃ added,
      (m.only ρ n).step (.openSession (ρ.cookie cookie) request) = some (next.only ρ n, added) := by
  obtain ⟨_, reached⟩ := h.reached
  have unopened : m.places[n]? = none :=
    List.getElem?_eq_none (Nat.le_of_eq (h.placed.numbered.trans next_opened))
  have there : (m.places ++ [m.sessions.leaders.length])[n]? = some m.sessions.leaders.length := by
    rw [← next_opened, ← h.placed.numbered, List.getElem?_concat_length]
  -- numbers are given out in order, so nothing has had this one before
  have entries : (m.registry.adding cookie).entries.filter (·.2 = n) = [(cookie, n)] := by
    have old : m.registry.entries.filter (·.2 = n) = [] := by
      refine List.filter_eq_nil_iff.2 fun entry member => ?_
      have known := h.lt_opened (List.mem_append_left _ (List.mem_map_of_mem member))
      simpa using Nat.ne_of_lt (next_opened ▸ known)
    rw [Registry.adding, filter_concat_own (f := Prod.snd) next_opened, old, next_opened,
      List.nil_append]
  have closings : m.closings.filter (·.leader = n) = [] := by
    refine List.filter_eq_nil_iff.2 fun c member => ?_
    have known := h.lt_opened (List.mem_append_right _ (List.mem_map_of_mem member))
    simpa using Nat.ne_of_lt (next_opened ▸ known)
  let leader := m.registry.leaderFor cookie request
  have alone : leader.renamed ρ [] =
      Registry.leaderFor { config := m.registry.config } (ρ.cookie cookie) request := by
    simp only [leader, Leader.renamed, Registry.leaderFor, Identity.renamed, next_opened,
      Option.map_some, session]
    rfl
  cases moves_of_step st with
  | refused taken =>
    rw [free] at taken
    cases taken
  | opened _ =>
    let opened : Manager α :=
      { m with
        sessions := (m.sessions.newLeader leader).1
        registry := m.registry.adding cookie
        places := m.places ++ [m.sessions.leaders.length] }
    have own := Sessions.only_newLeader reached ρ leader
    have parts := only_of_parts (m := opened) there own entries closings
    rw [only_of_none unopened, step, Registry.register_of_free request (by rfl), ← alone]
    exact ⟨_, congrArg (fun m => some (m, _)) parts.symm⟩

theorem Reached.sessions_only (alone : Reached (m.only ρ n) told)
    (there : m.places[n]? = some place) :
    ∃ told, Sessions.Reached (m.sessions.only ρ place) told := by
  have reached := (Invariant.of_reached alone).reached
  rwa [only_of_some there] at reached

theorem step_elsewhere (h : Invariant m record) (alone : Reached (m.only ρ n) told)
    {e e' : Sessions.Event α} (there : m.places[n]? = some place)
    (own : m.sessions.ownEvent ρ place e = some e')
    (st : m.step (.elsewhere e) = some (next, added)) : ∃ added,
      (m.only ρ n).step (.elsewhere e') = some (next.only ρ n, added) := by
  obtain ⟨_, reached⟩ := h.reached
  obtain ⟨_, aloneToo⟩ := alone.sessions_only there
  have moves := moves_of_step st
  have closings := h.closings_renamed moves ρ n place
  cases moves with
  | elsewhere moved =>
    obtain ⟨_, moved'⟩ := Sessions.step_own reached aloneToo own moved
    rw [step, only_of_some there, moved', Option.map_some, only_of_some (by exact there), closings]
    exact ⟨_, rfl⟩

theorem step_close (h : Invariant m record) {cookie : String}
    (found : m.registry.find? cookie = some n)
    (st : m.step (.closeSession cookie) = some (next, added)) : ∃ added,
      (m.only ρ n).step (.closeSession (ρ.cookie cookie)) = some (next.only ρ n, added) := by
  obtain ⟨place, there, -⟩ :=
    h.exists_place (h.lt_opened (List.mem_append_left _ (Invariant.mem_registered found)))
  have unique : (m.registry.entries.map (·.2)).Nodup :=
    (List.nodup_append.1 (h.books.leaders.nodup_iff.2 List.nodup_range)).1
  have entries : m.registry.entries.filter (·.2 = n) = [(cookie, n)] :=
    filter_eq_singleton unique (mem_entries found)
  have left : (m.registry.without cookie).entries.filter (·.2 = n) = [] := by
    rw [Registry.without, List.filter_comm, entries]
    simp
  let c : Closing := { cookie, leader := n }
  have closings : (m.closings ++ [c]).filter (·.leader = n) =
      m.closings.filter (·.leader = n) ++ [c] := filter_concat_own (f := Closing.leader) rfl
  have alone := only_of_parts (ρ := ρ) there rfl entries rfl
  have foundToo : (m.only ρ n).registry.find? (ρ.cookie cookie) = some 0 := by
    rw [alone]
    exact List.lookup_cons_self
  cases moves_of_step st with
  | missed free =>
    rw [found] at free
    cases free
  | removed taken =>
    obtain rfl := Option.some.inj (found.symm.trans taken)
    let closed : Manager α :=
      { m with
        registry := m.registry.without cookie
        closings := m.closings ++ [c] }
    have parts := only_of_parts (m := closed) (ρ := ρ) there rfl left closings
    have same : ({ m.only ρ n with
        registry := (m.only ρ n).registry.without (ρ.cookie cookie)
        closings := (m.only ρ n).closings ++ [{ cookie := ρ.cookie cookie, leader := 0 }] } :
          Manager α) = closed.only ρ n := by
      rw [parts, alone, List.map_append]
      simp [Registry.without, Closing.renamed, Closing.Stage.renumbered, c, closed]
    rw [step, Registry.close_of_found foundToo]
    exact ⟨_, congrArg (fun m => some (m, _)) same⟩

theorem step_resume_of_proceed (h : Invariant m record) (moves : m.Moves (.resume k) next added)
    (there : m.places[n]? = some place) (here : m.closings[k]? = some c) (mine : c.leader = n)
    {stage : Closing.Stage} (places : next.places = m.places)
    (registry : next.registry = m.registry)
    (closings : next.closings = m.closings.set k { c with stage })
    (proceeds : (m.only ρ n).proceed
        (c.renamed ρ (m.sessions.cancellations.map (·.leader)) place) =
      some (next.sessions.only ρ place,
        stage.renumbered (next.sessions.cancellations.map (·.leader)) place)) :
    ∃ added, (m.only ρ n).step (.resume (placeOf (m.closings.map (·.leader)) n k)) =
      some (next.only ρ n, added) := by
  have found : (m.only ρ n).closings[placeOf (m.closings.map (·.leader)) n k]? =
      some (c.renamed ρ (m.sessions.cancellations.map (·.leader)) place) := by
    rw [only_of_some there, List.getElem?_map, getElem?_placeOf here mine, Option.map_some]
  have moved : next.closings.filter (·.leader = n) =
      (m.closings.filter (·.leader = n)).set (placeOf (m.closings.map (·.leader)) n k)
        { c with stage } := by
    rw [closings]
    exact filter_set_own (f := Closing.leader) here mine mine
  have same : ({ m.only ρ n with
      sessions := next.sessions.only ρ place
      closings := (m.only ρ n).closings.set (placeOf (m.closings.map (·.leader)) n k)
        { c.renamed ρ (m.sessions.cancellations.map (·.leader)) place with
          stage := stage.renumbered (next.sessions.cancellations.map (·.leader)) place } } :
        Manager α) = next.only ρ n := by
    rw [only_of_parts (places ▸ there) rfl (congrArg (·.entries.filter (·.2 = n)) registry) moved,
      List.map_set, h.closings_renamed moves, registry, only_of_some there]
    rfl
  rw [step, found, Option.bind_some, proceeds, Option.map_some]
  exact ⟨_, congrArg (fun m => some (m, _)) same⟩

theorem step_resume (reached : Reached m record) (alone : Reached (m.only ρ n) told)
    (here : m.closings[k]? = some c) (mine : c.leader = n)
    (st : m.step (.resume k) = some (next, added)) : ∃ added,
      (m.only ρ n).step (.resume (placeOf (m.closings.map (·.leader)) n k)) =
        some (next.only ρ n, added) := by
  have h := Invariant.of_reached reached
  obtain ⟨_, sessionsReached⟩ := h.reached
  subst mine
  obtain ⟨place, there, -⟩ := h.exists_closing_place here
  obtain ⟨_, aloneToo⟩ := alone.sessions_only there
  have moves := moves_of_step st
  cases moves with
  | @flag _ place' c' _ _ here' stage there' moved =>
    obtain rfl : c = c' := Option.some.inj (here.symm.trans here')
    obtain rfl : place = place' := Option.some.inj (there.symm.trans there')
    obtain ⟨_, moved'⟩ :=
      Sessions.step_own (e := .flag place) sessionsReached aloneToo (if_pos rfl) moved
    refine step_resume_of_proceed h (moves_of_step st) there here rfl rfl rfl rfl ?_
    rw [only_of_some there]
    simp only [proceed, Closing.renamed, stage, Closing.Stage.renumbered, List.getElem?_cons_zero,
      moved', Option.map_some]
  | @cancel _ place' c' _ _ here' stage there' moved =>
    obtain rfl : c = c' := Option.some.inj (here.symm.trans here')
    obtain rfl : place = place' := Option.some.inj (there.symm.trans there')
    obtain ⟨_, moved'⟩ :=
      Sessions.step_own (e := .cancel place) sessionsReached aloneToo (if_pos rfl) moved
    -- what is waited for is the leader's last cancellation, here as there
    have last : placeOf (m.sessions.cancellations.map (·.leader)) place
        m.sessions.cancellations.length = (m.sessions.only ρ place).cancellations.length := by
      rw [placeOf_length, Sessions.only, List.length_map, Sessions.cancellationsOf]
    have grown := placeOf_of_grown (Sessions.moves_of_step moved).owners_grown
      (k := m.sessions.cancellations.length) (Nat.le_of_eq (List.length_map _).symm) place
    refine step_resume_of_proceed h (moves_of_step st) there here rfl rfl rfl rfl ?_
    rw [only_of_some there]
    simp only [proceed, Closing.renamed, stage, Closing.Stage.renumbered, List.getElem?_cons_zero,
      moved', Option.map_some, grown, last]
  | @finish _ j c' a here' stage there' ended =>
    obtain rfl : c = c' := Option.some.inj (here.symm.trans here')
    obtain ⟨b, found, owner⟩ := reached.cancels c (List.mem_of_getElem? here) j stage
    obtain rfl : a = b := Option.some.inj (there'.symm.trans found)
    have own : a.leader = place := Option.some.inj (owner.symm.trans there)
    have foundToo := Sessions.getElem?_cancellations_only (ρ := ρ) found own
    have endedToo : (a.renumbered (m.sessions.jobsOf place)).isOver = true := by
      simpa [Cancellation.isOver, Cancellation.renumbered] using ended
    refine step_resume_of_proceed h (moves_of_step st) there here rfl rfl rfl rfl ?_
    rw [only_of_some there]
    simp only [proceed, Closing.renamed, stage, Closing.Stage.renumbered, foundToo, Option.map_some,
      endedToo, Option.getD_some, if_true]

theorem step_own (reached : Reached m record) (alone : Reached (m.only ρ n) told)
    (session : ρ.session (Registry.sessionId n) = Registry.sessionId 0)
    (own : m.ownEvent ρ n e = some e') (st : m.step e = some (next, added)) :
    ∃ added, (m.only ρ n).step e' = some (next.only ρ n, added) := by
  have h := Invariant.of_reached reached
  cases e with
  | elsewhere e =>
    obtain ⟨place, there, own⟩ := Option.bind_eq_some_iff.1 own
    obtain ⟨e', mine, rfl⟩ := Option.map_eq_some_iff.1 own
    exact step_elsewhere h alone there mine st
  | openSession cookie request =>
    obtain ⟨⟨opened, free⟩, same⟩ := Option.ite_none_right_eq_some.1 own
    obtain rfl := Option.some.inj same
    exact step_open h session opened free st
  | closeSession cookie =>
    obtain ⟨found, same⟩ := Option.ite_none_right_eq_some.1 own
    obtain rfl := Option.some.inj same
    exact step_close h found st
  | resume k =>
    obtain ⟨place, there, rfl⟩ := Option.map_eq_some_iff.1 own
    obtain ⟨c, here, mine, rfl⟩ := exists_of_placeOf? there
    exact step_resume reached alone here mine st
  | get _ | getOrError _ | count | cookies => cases own

theorem view_only (m : Manager α) (ρ : Renaming) (n : Nat) :
    (m.only ρ n).view 0 = (m.view n).map (·.renamed ρ) := by
  cases there : m.places[n]? with
  | none => rw [view, only_of_none there, view, there]; rfl
  | some place =>
    rw [view, only_of_some there, view, there, Option.map_some, Option.map_some,
      ← m.sessions.view_only]
    rfl

theorem run_own (reached : Reached m record) (alone : Reached (m.only ρ n) told)
    (session : ρ.session (Registry.sessionId n) = Registry.sessionId 0)
    (ran : m.run events = some (final, added)) :
    (∃ more, (m.only ρ n).run (ownEvents ρ n m events) = some (final.only ρ n, more)) ∧
      (m.only ρ n).views 0 (ownEvents ρ n m events) =
        (observed ρ n m events).map (Option.map (·.renamed ρ)) := by
  induction events generalizing m record told added with
  | nil =>
    cases ran
    exact ⟨⟨[], rfl⟩, rfl⟩
  | cons e events ih =>
    obtain ⟨next, first, rest, st, later, -⟩ := exists_of_run_cons ran
    have h := Invariant.of_reached reached
    cases own : m.ownEvent ρ n e with
    | none =>
      -- alone, the session stands still while others act
      have same := only_of_other h (moves_of_step st) own
      have steps : m.ownSteps ρ n (e :: events) = next.ownSteps ρ n events := by
        rw [ownSteps, st]
        simp only [own, Option.toList_none, List.map_nil, List.nil_append]
      rw [ownEvents, observed, steps, ← same]
      exact ih (reached.step st) (same.symm ▸ alone) later
    | some e' =>
      obtain ⟨_, st'⟩ := step_own reached alone session own st
      have steps : m.ownSteps ρ n (e :: events) =
          (e', next.view n) :: next.ownSteps ρ n events := by
        rw [ownSteps, st]
        simp only [own, Option.toList_some, List.map_singleton, List.singleton_append]
      have ownToo : ownEvents ρ n m (e :: events) = e' :: ownEvents ρ n next events := by
        rw [ownEvents, steps, List.map_cons, ownEvents]
      have seen : observed ρ n m (e :: events) = next.view n :: observed ρ n next events := by
        rw [observed, steps, List.map_cons, observed]
      obtain ⟨⟨_, ran'⟩, later'⟩ := ih (reached.step st) (alone.step st') later
      rw [ownToo, seen]
      refine ⟨⟨_, run_trans (run_single st') ran'⟩, ?_⟩
      rw [views, st', List.map_cons, ← view_only, ← later']

theorem ownEvent_of_ends (h : Invariant m record) (ends : m.Ends k e) (other : k ≠ n) :
    m.ownEvent ρ n e = none := by
  cases e with
  | closeSession cookie => exact if_neg fun same => other (Option.some.inj (ends.symm.trans same))
  | resume j =>
    obtain ⟨c, here, theirs⟩ := ends
    exact Option.map_eq_none_iff.2
      (placeOf?_eq_none here fun mine => other (theirs.symm.trans mine))
  | elsewhere e =>
    have apart : ∀ {place place'}, m.places[k]? = some place' → m.places[n]? = some place →
        place' ≠ place := fun there' there => place_ne_of_ne h other there there'
    refine Option.bind_eq_none_iff.2 fun place there => Option.map_eq_none_iff.2 ?_
    cases e with
    | flag _ | cancel _ => exact if_neg (apart ends there)
    | terminate j _ | proceed j =>
      obtain ⟨c, here, theirs⟩ := ends
      exact Option.map_eq_none_iff.2 (placeOf?_eq_none here (apart theirs there))
    | create _ | identify _ _ | override _ _ | newJob _ | collect _ _ _ | watch _ _ | complete _
    | call _ => cases ends
  | openSession _ _ | get _ | getOrError _ | count | cookies => cases ends

/-- What a run of a register means for the session with a number, whatever other names are given to
its id and to cookies. -/
structure Isolated (config : Config) (events : List (Event α)) (m : Manager α) (ρ : Renaming)
    (n : Nat) : Prop where
  /-- The session's own steps are a run of a new register, which then knows what the session has. -/
  alone : ∃ told, ({ registry := { config } } : Manager α).run
    (ownEvents ρ n { registry := { config } } events) = some (m.only ρ n, told)
  /-- After each of these steps the session looks as it did after the same step among others. -/
  observed : ({ registry := { config } } : Manager α).views 0
      (ownEvents ρ n { registry := { config } } events) =
    (observed ρ n { registry := { config } } events).map (Option.map (·.renamed ρ))
  /-- In between nothing is to be seen of what else goes on. -/
  unseen : ∀ e next added, m.step e = some (next, added) → m.ownEvent ρ n e = none →
    next.view n = m.view n
  undisturbed : ∀ e next added place, m.step e = some (next, added) → m.ownEvent ρ n e = none →
    m.places[n]? = some place → m.sessions.Undisturbed next.sessions place
  /-- Closing another session, or cancelling its collections, is no concern of this one. -/
  ended : ∀ e next added k place, m.step e = some (next, added) → m.Ends k e → k ≠ n →
    m.places[n]? = some place → m.sessions.Undisturbed next.sessions place

theorem isolation {config : Config}
    (session : ρ.session (Registry.sessionId n) = Registry.sessionId 0)
    (ran : ({ registry := { config } } : Manager α).run events = some (m, record)) :
    Isolated config events m ρ n := by
  have start : Reached ({ registry := { config } } : Manager α) [] := .start config
  have h := Invariant.of_reached (start.run ran)
  obtain ⟨alone, observed⟩ := run_own (ρ := ρ) start start session ran
  exact {
    alone, observed
    unseen := fun e next added st other => view_of_other h (moves_of_step st) other
    undisturbed := fun e next added place st other there =>
      Manager.undisturbed h (moves_of_step st) other there
    ended := fun e next added k place st ends other there =>
      Manager.undisturbed (ρ := ρ) h (moves_of_step st) (ownEvent_of_ends h ends other) there }

/-- Two sessions collect at once. The first is closed while the helper of the second ends, and is
given up before the second's callback is called. -/
def sharedEvents : List (Event Nat) :=
  let spawn := fun _ => .ok ((), { process := 1, output := 2, diagnostics := 3 })
  [.openSession "a" {}, .openSession "b" { uid := 5, parameters := [⟨"session-type", .text "x"⟩] },
    .elsewhere (.collect 0 7 spawn), .elsewhere (.collect 1 8 spawn), .closeSession "a",
    .resume 0] ++
    (Sessions.endsAtOnce 2).map .elsewhere ++
    [.resume 0, .elsewhere (.terminate 0 1), .elsewhere (.complete 1),
      .elsewhere (.watch 1 .noticeCancel), .elsewhere (.call 1)]

def firstNames : Renaming where
  session id := if id = "Session2" then "Session1" else id
  cookie _ := "c"

theorem isolation_shared : ∃ (m : Manager Nat) (record : List Entry),
    ({ registry := { config := ⟨"h"⟩ } } : Manager Nat).run sharedEvents = some (m, record) ∧
      (m.view 1).map (·.callbacks) = some [(8, .called ⟨some ⟨[⟨"session-type", .text "x"⟩]⟩,
        { sessionId := some "Session2", cookie := some "b", uid := 5 }, false⟩)] ∧
      (m.view 0).map (fun v => (v.cancelled, v.callbacks)) = some (true, [(7, .waiting)]) ∧
      Isolated ⟨"h"⟩ sharedEvents m firstNames 1 := by
  have told : (({ registry := { config := ⟨"h"⟩ } } : Manager Nat).run sharedEvents).map
      (fun r => ((r.1.view 1).map (·.callbacks),
        (r.1.view 0).map fun v => (v.cancelled, v.callbacks))) =
      some (some [(8, .called ⟨some ⟨[⟨"session-type", .text "x"⟩]⟩,
        { sessionId := some "Session2", cookie := some "b", uid := 5 }, false⟩)],
      some (true, [(7, .waiting)])) := rfl
  obtain ⟨⟨m, record⟩, ran, same⟩ := Option.map_eq_some_iff.1 told
  obtain ⟨called, waiting⟩ := Prod.mk.inj same
  exact ⟨m, record, ran, called, waiting, isolation (by decide) ran⟩

end Manager

end LoginSession

import LoginSession.Proofs.Interleaving
import Mathlib.Data.List.Nodup

namespace LoginSession

namespace Sessions

variable {α : Type} {s next : Sessions α} {record added : List (Entry α)} {e : Event α}

theorem exists_getElem?_set {β γ : Type} {xs ys : List β} {k m : Nat} {x y y' : β} (kept : β → γ)
    (here : xs[m]? = some y) (found : xs[k]? = some x) (set : ys = xs.set m y')
    (same : kept y' = kept y) : ∃ x', ys[k]? = some x' ∧ kept x' = kept x := by
  subst set
  by_cases mine : m = k
  · subst mine
    obtain rfl : y = x := Option.some.inj (here.symm.trans found)
    exact ⟨y', List.getElem?_set_self (List.getElem?_eq_some_iff.1 here).1, same⟩
  · exact ⟨x, by rw [List.getElem?_set_ne mine, found], rfl⟩

theorem map_set_of_eq {β γ : Type} {xs : List β} {k : Nat} {x y : β} (f : β → γ)
    (here : xs[k]? = some x) (same : f y = f x) : (xs.set k y).map f = xs.map f := by
  obtain ⟨bound, rfl⟩ := List.getElem?_eq_some_iff.1 here
  rw [List.map_set, same, ← List.map_set, List.set_getElem_self]

theorem mem_set_of_nodup_flatMap {β γ : Type} {xs : List β} {k : Nat} {x y d : β}
    {f : β → List γ} (apart : (xs.flatMap f).Nodup) (here : xs[k]? = some x)
    (member : d ∈ xs.set k y) : d = y ∨ d ∈ xs ∧ ∀ a ∈ f d, a ∉ f x := by
  obtain ⟨known, value⟩ := List.getElem?_eq_some_iff.1 here
  obtain ⟨front, back, split, -, set⟩ := @List.exists_of_set _ k y xs known
  rw [value] at split
  rw [split, List.flatMap_append, List.flatMap_cons] at apart
  obtain ⟨-, rest, first⟩ := List.nodup_append.1 apart
  obtain ⟨-, -, second⟩ := List.nodup_append.1 rest
  rw [set, List.mem_append, List.mem_cons] at member
  rcases member with before | rfl | after
  · refine .inr ⟨by simp [split, before], fun a theirs mine => ?_⟩
    exact first a (List.mem_flatMap.2 ⟨d, before, theirs⟩) a (List.mem_append_left _ mine) rfl
  · exact .inl rfl
  · refine .inr ⟨by simp [split, after], fun a theirs mine => ?_⟩
    exact second a mine a (List.mem_flatMap.2 ⟨d, after, theirs⟩) rfl

/-- What the record says of one collection, in order. -/
def history (record : List (Entry α)) (id : Nat) : List (Entry α) := record.filter (·.job = id)

theorem mem_history {x : Entry α} {id : Nat} :
    x ∈ history record id ↔ x ∈ record ∧ x.job = id := by
  simp [history]

theorem history_append (record added : List (Entry α)) (id : Nat) :
    history (record ++ added) id = history record id ++ history added id :=
  List.filter_append record added

theorem history_of_forall_ne {id : Nat} (h : ∀ x ∈ record, x.job ≠ id) : history record id = [] := by
  simpa [history] using h

theorem history_drained (n : Nat) {ids : List Nat} (once : ids.Nodup) (id : Nat) :
    history (ids.map fun id => (.drained n id : Entry α)) id =
      if id ∈ ids then [.drained n id] else [] := by
  have named : ((fun x : Entry α => decide (x.job = id)) ∘ fun id => .drained n id) =
      fun i => decide (i = id) := rfl
  rw [history, List.filter_map, named, List.filter_eq, once.count]
  split <;> rfl

/-- The five ways in which a collection may stand, each with all that the record says of it. -/
inductive Life (c : Collection α) (inFlight : Prop) (told : List (Entry α)) : Prop where
  | refused (dropped : c.ending = .dropped) (out : ¬inFlight)
    (told : told = [.refused c.leader c.job])
  | running (waiting : c.ending = .waiting) (unclaimed : c.claimed = false) (inside : inFlight)
    (told : told = [.started c.leader c.job c.context])
  | drained (unclaimed : c.claimed = false) (uncalled : c.ending = .waiting ∨ c.ending = .dropped)
    (out : ¬inFlight)
    (told : told = [.started c.leader c.job c.context, .drained c.leader c.job])
  | due (waiting : c.ending = .waiting) (claimed : c.claimed = true) (out : ¬inFlight)
    (told : told = [.started c.leader c.job c.context, .removed c.leader c.job])
  | reported {report : Report} (called : c.ending = .called report) (out : ¬inFlight)
    (told : told = [.started c.leader c.job c.context, .removed c.leader c.job,
      .called c.leader c.job report c.context])

namespace Life

variable {c : Collection α} {inFlight after : Prop} {told : List (Entry α)}

theorem running_of_inFlight (life : Life c inFlight told) (inside : inFlight) :
    c.ending = .waiting ∧ c.claimed = false ∧ told = [.started c.leader c.job c.context] := by
  cases life with
  | refused _ out _ => exact absurd inside out
  | running waiting unclaimed _ told => exact ⟨waiting, unclaimed, told⟩
  | drained _ _ out _ => exact absurd inside out
  | due _ _ out _ => exact absurd inside out
  | reported _ out _ => exact absurd inside out

theorem of_not_inFlight (life : Life c inFlight told) (before : ¬inFlight) (out : ¬after) :
    Life c after told := by
  rwa [eq_false out, ← eq_false before]

theorem drain (life : Life c inFlight told) (inside : inFlight) (out : ¬after) :
    Life c after (told ++ [.drained c.leader c.job]) := by
  obtain ⟨waiting, unclaimed, rfl⟩ := life.running_of_inFlight inside
  exact .drained unclaimed (.inl waiting) out rfl

theorem remove (life : Life c inFlight told) (inside : inFlight) (out : ¬after) :
    Life { c with claimed := true } after (told ++ [.removed c.leader c.job]) := by
  obtain ⟨waiting, unclaimed, rfl⟩ := life.running_of_inFlight inside
  exact .due waiting rfl out rfl

theorem drop (life : Life c inFlight told) (waiting : c.ending = .waiting)
    (unclaimed : c.claimed = false) (out : ¬inFlight) :
    Life { c with ending := .dropped } inFlight told := by
  cases life with
  | refused dropped _ _ =>
    rw [waiting] at dropped
    cases dropped
  | running _ _ inside _ => exact absurd inside out
  | drained unclaimed _ out told => exact .drained unclaimed (.inr rfl) out told
  | due _ claimed _ _ =>
    rw [unclaimed] at claimed
    cases claimed
  | reported called _ _ =>
    rw [waiting] at called
    cases called

theorem call (life : Life c inFlight told) (waiting : c.ending = .waiting)
    (claimed : c.claimed = true) (report : Report) :
    Life { c with ending := .called report } inFlight
      (told ++ [.called c.leader c.job report c.context]) := by
  cases life with
  | refused dropped _ _ =>
    rw [waiting] at dropped
    cases dropped
  | running _ unclaimed _ _ | drained unclaimed _ _ _ =>
    rw [claimed] at unclaimed
    cases unclaimed
  | due _ _ out told =>
    subst told
    exact .reported rfl out rfl
  | reported called _ _ =>
    rw [waiting] at called
    cases called

end Life

def InFlight (s : Sessions α) (c : Collection α) : Prop := c.job ∈ (s.leader c.leader).pending

structure Accounted (s : Sessions α) (record : List (Entry α)) : Prop where
  distinct : (s.collections.map (·.job)).Nodup
  numbered : ∀ c ∈ s.collections, c.job ≤ s.jobs.length
  life : ∀ c ∈ s.collections, Life c (s.InFlight c) (history record c.job)
  named : ∀ x ∈ record, ∃ c ∈ s.collections, c.job = x.job
  owned : ∀ n, ∀ id ∈ (s.leader n).pending, ∃ c ∈ s.collections, c.leader = n ∧ c.job = id
  once : ∀ n, (s.leader n).pending.Nodup

theorem Accounted.empty : Accounted (α := α) {} [] where
  distinct := List.nodup_nil
  numbered := by simp
  life := by simp
  named := by simp
  owned := by simp [leader]
  once := by simp [leader]

namespace Accounted

theorem eq_of_job (h : Accounted s record) {c d : Collection α} (hc : c ∈ s.collections)
    (hd : d ∈ s.collections) (same : c.job = d.job) : c = d :=
  List.inj_on_of_nodup_map h.distinct hc hd same

theorem not_mem_pending_of_lt (h : Accounted s record) {id : Nat} (fresh : s.jobs.length < id)
    (n : Nat) : id ∉ (s.leader n).pending := by
  intro member
  obtain ⟨c, hc, -, rfl⟩ := h.owned n id member
  have := h.numbered c hc
  omega

theorem history_of_lt (h : Accounted s record) {id : Nat} (fresh : s.jobs.length < id) :
    history record id = [] := by
  refine history_of_forall_ne fun x hx same => ?_
  obtain ⟨c, hc, job⟩ := h.named x hx
  have := h.numbered c hc
  omega

theorem keep (h : Accounted s record) (collections : next.collections = s.collections)
    (pending : ∀ n, (next.leader n).pending = (s.leader n).pending)
    (jobs : s.jobs.length ≤ next.jobs.length) : Accounted next (record ++ []) := by
  rw [List.append_nil]
  refine ⟨by rw [collections]; exact h.distinct, ?_, ?_, by rw [collections]; exact h.named, ?_, ?_⟩
  · intro c hc
    rw [collections] at hc
    exact Nat.le_trans (h.numbered c hc) jobs
  · intro c hc
    rw [collections] at hc
    have same : next.InFlight c = s.InFlight c := by rw [InFlight, InFlight, pending]
    rw [same]
    exact h.life c hc
  · intro n id
    rw [pending, collections]
    exact h.owned n id
  · intro n
    rw [pending]
    exact h.once n

theorem touch (h : Accounted s record) {c : Collection α} (here : c ∈ next.collections)
    (distinct : (next.collections.map (·.job)).Nodup)
    (jobs : s.jobs.length ≤ next.jobs.length) (numbered : c.job ≤ next.jobs.length)
    (kept : ∀ d ∈ s.collections, ∃ d' ∈ next.collections, d'.leader = d.leader ∧ d'.job = d.job)
    (others : ∀ d ∈ next.collections, d = c ∨ d ∈ s.collections ∧ d.job ≠ c.job)
    (pending : ∀ n id, id ≠ c.job → (id ∈ (next.leader n).pending ↔ id ∈ (s.leader n).pending))
    (own : ∀ n, c.job ∈ (next.leader n).pending → n = c.leader)
    (once : ∀ n, (next.leader n).pending.Nodup) (told : ∀ x ∈ added, x.job = c.job)
    (life : Life c (next.InFlight c) (history record c.job ++ added)) :
    Accounted next (record ++ added) where
  distinct := distinct
  numbered := by
    intro d hd
    rcases others d hd with rfl | ⟨old, -⟩
    · exact numbered
    · exact Nat.le_trans (h.numbered d old) jobs
  life := by
    intro d hd
    rw [history_append]
    rcases others d hd with rfl | ⟨old, other⟩
    · have all : history added d.job = added := List.filter_eq_self.2 (by simpa using told)
      rw [all]
      exact life
    · have none : history added d.job = [] :=
        history_of_forall_ne fun x hx same => other (same.symm.trans (told x hx))
      have same : next.InFlight d = s.InFlight d := propext (pending d.leader d.job other)
      rw [none, List.append_nil, same]
      exact h.life d old
  named := by
    intro x hx
    rcases List.mem_append.1 hx with old | new
    · obtain ⟨d, hd, job⟩ := h.named x old
      obtain ⟨d', hd', -, same⟩ := kept d hd
      exact ⟨d', hd', same.trans job⟩
    · exact ⟨c, here, (told x new).symm⟩
  owned := by
    intro n id member
    by_cases mine : id = c.job
    · subst mine
      exact ⟨c, here, (own n member).symm, rfl⟩
    · obtain ⟨d, hd, leader, job⟩ := h.owned n id ((pending n id mine).1 member)
      obtain ⟨d', hd', leader', job'⟩ := kept d hd
      exact ⟨d', hd', leader'.trans leader, job'.trans job⟩
  once := once

theorem add (h : Accounted s record) {c : Collection α}
    (collections : next.collections = s.collections ++ [c]) (fresh : c.job = s.jobs.length + 1)
    (jobs : next.jobs.length = s.jobs.length + 1)
    (pending : ∀ n id, id ≠ c.job → (id ∈ (next.leader n).pending ↔ id ∈ (s.leader n).pending))
    (own : ∀ n, c.job ∈ (next.leader n).pending → n = c.leader)
    (once : ∀ n, (next.leader n).pending.Nodup) (told : ∀ x ∈ added, x.job = c.job)
    (life : Life c (next.InFlight c) added) : Accounted next (record ++ added) := by
  have new : ∀ d ∈ s.collections, d.job ≠ c.job := by
    intro d hd same
    have := h.numbered d hd
    omega
  have distinct : (next.collections.map (·.job)).Nodup := by
    rw [collections, List.map_append, List.map_singleton, List.nodup_append]
    refine ⟨h.distinct, List.nodup_singleton _, ?_⟩
    intro a ha b hb
    obtain ⟨d, hd, rfl⟩ := List.mem_map.1 ha
    rw [List.mem_singleton.1 hb]
    exact new d hd
  refine h.touch (c := c) ?_ distinct (by omega) (by omega) ?_ ?_ pending own once told ?_
  · simp [collections]
  · intro d hd
    exact ⟨d, by simp [collections, hd], rfl, rfl⟩
  · intro d hd
    rw [collections, List.mem_append, List.mem_singleton] at hd
    rcases hd with old | rfl
    · exact .inr ⟨old, new d old⟩
    · exact .inl rfl
  · rw [h.history_of_lt (by omega), List.nil_append]
    exact life

theorem change (h : Accounted s record) {k : Nat} {c c' : Collection α}
    (here : s.collections[k]? = some c) (collections : next.collections = s.collections.set k c')
    (job : c'.job = c.job) (leader : c'.leader = c.leader) (jobs : next.jobs = s.jobs)
    (pending : ∀ n id, id ≠ c.job → (id ∈ (next.leader n).pending ↔ id ∈ (s.leader n).pending))
    (sublist : ∀ n, ((next.leader n).pending).Sublist (s.leader n).pending)
    (told : ∀ x ∈ added, x.job = c.job)
    (life : Life c' (next.InFlight c) (history record c.job ++ added)) :
    Accounted next (record ++ added) := by
  have old : c ∈ s.collections := List.mem_of_getElem? here
  have changed : c' ∈ next.collections := by
    rw [collections]
    exact List.mem_set (List.getElem?_eq_some_iff.1 here).1 c'
  have distinct : (next.collections.map (·.job)).Nodup := by
    rw [collections, map_set_of_eq _ here job]
    exact h.distinct
  have kept : ∀ d ∈ s.collections,
      ∃ d' ∈ next.collections, d'.leader = d.leader ∧ d'.job = d.job := by
    intro d hd
    obtain ⟨i, found⟩ := List.mem_iff_getElem?.1 hd
    obtain ⟨d', found', same⟩ := exists_getElem?_set (fun x => (x.leader, x.job)) here found
      collections (Prod.ext leader job)
    exact ⟨d', List.mem_of_getElem? found', Prod.mk.inj same⟩
  -- ids are distinct, so what happens to this collection concerns no other
  have others : ∀ d ∈ next.collections, d = c' ∨ d ∈ s.collections ∧ d.job ≠ c'.job := by
    intro d hd
    have apart := h.distinct
    rw [List.map_eq_flatMap] at apart
    rw [collections] at hd
    refine (mem_set_of_nodup_flatMap apart here hd).imp_right (.imp_right fun other same => ?_)
    exact other d.job (List.mem_singleton_self _) (List.mem_singleton.2 (same.trans job))
  refine h.touch changed distinct (Nat.le_of_eq (by rw [jobs])) ?_ kept others ?_ ?_ ?_ ?_ ?_
  · rw [job, jobs]
    exact h.numbered c old
  · rw [job]
    exact pending
  · intro n member
    rw [job] at member
    obtain ⟨d, hd, mine, named⟩ := h.owned n c.job ((sublist n).subset member)
    rw [leader, ← mine, h.eq_of_job hd old named]
  · exact fun n => (h.once n).sublist (sublist n)
  · rw [job]
    exact told
  · have flight : next.InFlight c' = next.InFlight c := by rw [InFlight, InFlight, job, leader]
    rw [flight, job]
    exact life

theorem drain (h : Accounted s record) {n : Nat} (known : n < s.leaders.length) :
    Accounted (s.cancel n) (record ++ (s.leader n).pending.map fun id => .drained n id) := by
  have leader := leader_cancel (s := s) known
  have emptied : ((s.cancel n).leader n).pending = [] := by
    rw [leader, if_pos rfl]
    rfl
  refine ⟨h.distinct, h.numbered, ?_, ?_, ?_, ?_⟩
  · intro c hc
    have life := h.life c hc
    rw [history_append, history_drained n (h.once n)]
    by_cases mine : c.leader = n
    · have out : ¬(s.cancel n).InFlight c := by
        rw [InFlight, mine, emptied]
        exact List.not_mem_nil
      subst mine
      by_cases inside : c.job ∈ (s.leader c.leader).pending
      · rw [if_pos inside]
        exact life.drain inside out
      · rw [if_neg inside, List.append_nil]
        exact life.of_not_inFlight inside out
    · have same : (s.cancel n).InFlight c = s.InFlight c := by
        rw [InFlight, InFlight, leader, if_neg mine]
      have absent : c.job ∉ (s.leader n).pending := by
        intro member
        obtain ⟨d, hd, owner, job⟩ := h.owned n c.job member
        rw [h.eq_of_job hd hc job] at owner
        exact mine owner
      rw [if_neg absent, List.append_nil, same]
      exact life
  · intro x hx
    rcases List.mem_append.1 hx with old | new
    · exact h.named x old
    · obtain ⟨id, member, rfl⟩ := List.mem_map.1 new
      obtain ⟨c, hc, -, job⟩ := h.owned n id member
      exact ⟨c, hc, job⟩
  · intro m id member
    rw [leader] at member
    split at member
    · cases member
    · exact h.owned m id member
  · intro m
    rw [leader]
    split
    · exact List.nodup_nil
    · exact h.once m

theorem step (h : Accounted s record) (st : s.step e = some (next, added)) :
    Accounted next (record ++ added) := by
  cases moves_of_step st with
  | create empty _ =>
    refine h.keep rfl (fun m => ?_) (Nat.le_refl _)
    rw [leader_newLeader]
    split
    · rename_i last
      rw [empty, leader_of_le s (Nat.le_of_eq last.symm)]
    · rfl
  | identify known | override known | flag known =>
    refine h.keep rfl (fun m => ?_) (Nat.le_refl _)
    rw [leader_setLeader known]
    split
    · rename_i same
      subst same
      rfl
    · rfl
  | newJob =>
    exact h.keep rfl (fun _ => rfl) (by simp [newJob])
  | @start n context _ child known =>
    have leader := leader_started (s := s) known context child
    have fresh := h.not_mem_pending_of_lt (Nat.lt_succ_self s.jobs.length)
    refine h.add (c := { leader := n, job := s.jobs.length + 1, context }) rfl rfl ?_ ?_ ?_ ?_ ?_ ?_
    · simp [started, newJob, setJob, setLeader, addCollection]
    · intro m id other
      rw [leader]
      split
      · rename_i same
        simpa [Leader.track, same] using fun here => absurd here other
      · rfl
    · intro m member
      rw [leader] at member
      split at member
      · rename_i same
        exact same
      · exact absurd member (fresh m)
    · intro m
      rw [leader]
      split
      · refine List.nodup_append.2 ⟨h.once n, List.nodup_singleton _, ?_⟩
        rintro a old b new rfl
        rw [List.mem_singleton] at new
        subst new
        exact fresh n old
      · exact h.once m
    · simp [Entry.job]
    · refine .running rfl rfl ?_ rfl
      rw [InFlight, leader, if_pos rfl]
      exact List.mem_append_right _ (List.mem_singleton_self _)
  | @refuse n context _ known =>
    have fresh := h.not_mem_pending_of_lt (Nat.lt_succ_self s.jobs.length)
    refine h.add (c := { leader := n, job := s.jobs.length + 1, context, ending := .dropped })
      rfl rfl ?_ (fun _ _ _ => Iff.rfl) ?_ h.once ?_ ?_
    · simp [refused, newJob, addCollection]
    · intro m member
      exact absurd member (fresh m)
    · simp [Entry.job]
    · exact .refused rfl (fresh n) rfl
  | watch _ _ _ =>
    exact h.keep rfl (fun _ => rfl) (by simp [setJob])
  | @remove k c _ here _ _ _ removed =>
    have inside := (Leader.eq_of_remove? removed).1
    have leader := leader_remove removed k { c with claimed := true }
    refine h.change here rfl rfl rfl rfl ?_ ?_ ?_ ?_
    · intro m id other
      rw [leader]
      dsimp only
      split
      · exact List.mem_erase_of_ne other
      · rfl
    · intro m
      rw [leader]
      dsimp only
      split
      · exact List.erase_sublist
      · exact List.Sublist.refl _
    · simp [Entry.job]
    · refine (h.life c (List.mem_of_getElem? here)).remove inside ?_
      rw [InFlight, leader, if_pos rfl]
      exact (h.once c.leader).not_mem_erase
  | drop here waiting unclaimed _ gone =>
    refine h.change here rfl rfl rfl rfl (fun _ _ _ => Iff.rfl) (fun _ => List.Sublist.refl _) ?_ ?_
    · simp
    · rw [List.append_nil]
      exact (h.life _ (List.mem_of_getElem? here)).drop waiting unclaimed gone
  | call here waiting claimed =>
    refine h.change here rfl rfl rfl rfl (fun _ _ _ => Iff.rfl) (fun _ => List.Sublist.refl _) ?_ ?_
    · simp [Entry.job]
    · exact (h.life _ (List.mem_of_getElem? here)).call waiting claimed _
  | cancel known => exact h.drain known
  | terminate _ _ _ _ =>
    exact h.keep rfl (fun _ => rfl) (by simp [terminate, setJob, setCancellation])
  | proceed _ _ _ =>
    exact h.keep rfl (fun _ => rfl) (Nat.le_refl _)

theorem of_reached (reached : Reached s record) : Accounted s record := by
  induction reached with
  | start => exact empty
  | step _ st accounted => exact accounted.step st

theorem exists_life (h : Accounted s record) {x : Entry α} (member : x ∈ record) :
    ∃ c ∈ s.collections, c.job = x.job ∧ x ∈ history record c.job ∧
      Life c (s.InFlight c) (history record c.job) := by
  obtain ⟨c, hc, job⟩ := h.named x member
  exact ⟨c, hc, job, mem_history.2 ⟨member, job.symm⟩, h.life c hc⟩

theorem mem_pending_iff (h : Accounted s record) (n id : Nat) :
    id ∈ (s.leader n).pending ↔ (∃ context, .started n id context ∈ record) ∧
      (∀ m, .removed m id ∉ record) ∧ ∀ m, .drained m id ∉ record := by
  constructor
  · intro inside
    obtain ⟨c, hc, rfl, rfl⟩ := h.owned n id inside
    obtain ⟨-, -, told⟩ := (h.life c hc).running_of_inFlight inside
    refine ⟨⟨c.context, ?_⟩, fun m member => ?_, fun m member => ?_⟩
    · have first : .started c.leader c.job c.context ∈ history record c.job := by simp [told]
      exact (mem_history.1 first).1
    · have here := mem_history.2 ⟨member, rfl⟩
      simp only [Entry.job, told] at here
      simp at here
    · have here := mem_history.2 ⟨member, rfl⟩
      simp only [Entry.job, told] at here
      simp at here
  · rintro ⟨⟨context, member⟩, unremoved, undrained⟩
    obtain ⟨c, hc, rfl, here, life⟩ := h.exists_life member
    cases life with
    | refused _ _ told => simp [told] at here
    | running _ _ inside told =>
      simp only [told, List.mem_singleton, Entry.started.injEq] at here
      rw [here.1]
      exact inside
    | drained _ _ _ told =>
      have gone : .drained c.leader c.job ∈ history record c.job := by simp [told]
      exact absurd (mem_history.1 gone).1 (undrained _)
    | due _ _ _ told | reported _ _ told =>
      have gone : .removed c.leader c.job ∈ history record c.job := by simp [told]
      exact absurd (mem_history.1 gone).1 (unremoved _)

end Accounted

end Sessions

end LoginSession

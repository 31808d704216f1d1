import LoginSession.Proofs.Draining
import LoginSession.Session.Attempt

namespace LoginSession

namespace Sessions

variable {α : Type} {s next : Sessions α} {record added : List (Entry α)} {e : Event α}

def Event.watched? (job : Nat) : Event α → Option Watch.Event
  | .watch id e => if id = job then some e else none
  | _ => none

/-- An event changes a leader if it is an operation of that leader or completes a collection of it.
-/
def Touches (s : Sessions α) (n : Nat) (e : Event α) : Prop :=
  e.leader? = some n ∨ ∃ k c, e = .complete k ∧ s.collections[k]? = some c ∧ c.leader = n

theorem job?_newJob_of_some {id : Nat} {job : Job} (found : s.job? id = some job)
    (command : Option String) : (s.newJob command).1.job? id = some job := by
  rw [job?_newJob, found]
  rfl

namespace Moves

theorem length_leaders_le (moves : s.Moves e next added) :
    s.leaders.length ≤ next.leaders.length := by
  cases moves with
  | create _ _ => simp [newLeader]
  | identify _ | override _ | flag _ => simp [setLeader]
  | start _ => exact Nat.le_of_eq List.length_set.symm
  | remove _ _ _ _ _ => simp [setCollection, setLeader]
  | cancel _ => simp [Sessions.cancel, setLeader]
  | newJob | refuse _ | watch _ _ _ | drop _ _ _ _ _ | call _ _ _ | terminate _ _ _ _
  | proceed _ _ _ => exact Nat.le_refl _

theorem leader (moves : s.Moves e next added) {n : Nat} (known : n < s.leaders.length)
    (unused : e.leader? ≠ some n) : next.leader n = s.leader n ∨
      ∃ k c, e = .complete k ∧ s.collections[k]? = some c ∧ c.leader = n ∧
        next.leader n = { s.leader n with pending := (s.leader n).pending.erase c.job } := by
  have apart : ∀ {m : Nat}, e.leader? = some m → n ≠ m := fun used same => unused (same ▸ used)
  cases moves with
  | create _ _ =>
    left
    rw [leader_newLeader, if_neg (Nat.ne_of_lt known)]
  | identify here | override here | flag here =>
    left
    rw [leader_setLeader here, if_neg (apart rfl)]
  | start here =>
    left
    rw [leader_started here, if_neg (apart rfl)]
  | cancel here =>
    left
    rw [leader_cancel here, if_neg (apart rfl)]
  | @remove k c _ here _ _ _ removed =>
    have changed := leader_remove removed k { c with claimed := true } n
    by_cases mine : n = c.leader
    · exact .inr ⟨k, c, rfl, here, mine.symm, by rw [changed, if_pos mine]⟩
    · exact .inl (by rw [changed, if_neg mine])
  | newJob | refuse _ | watch _ _ _ | drop _ _ _ _ _ | call _ _ _ | terminate _ _ _ _
  | proceed _ _ _ => exact .inl rfl

theorem overrides (moves : s.Moves e next added) {n : Nat} (known : n < s.leaders.length)
    (unused : e.leader? ≠ some n) : (next.leader n).overrides = (s.leader n).overrides := by
  rcases moves.leader known unused with same | ⟨k, c, -, -, -, erased⟩
  · rw [same]
  · rw [erased]

theorem cancelled (moves : s.Moves e next added) {n : Nat} (known : n < s.leaders.length)
    (unused : e.leader? ≠ some n) : (next.leader n).cancelled = (s.leader n).cancelled := by
  rcases moves.leader known unused with same | ⟨k, c, -, -, -, erased⟩
  · rw [same]
  · rw [erased]

theorem pending_subset (moves : s.Moves e next added) {n : Nat} (known : n < s.leaders.length)
    (unused : e.leader? ≠ some n) : (next.leader n).pending ⊆ (s.leader n).pending := by
  rcases moves.leader known unused with same | ⟨k, c, -, -, -, erased⟩
  · rw [same]
    exact List.Subset.refl _
  · rw [erased]
    exact List.erase_subset

theorem collection (moves : s.Moves e next added) {k : Nat} {c : Collection α}
    (found : s.collections[k]? = some c) :
    ∃ c', next.collections[k]? = some c' ∧ (c'.leader, c'.job) = (c.leader, c.job) := by
  have appended : ∀ d, (s.collections ++ [d])[k]? = some c := by
    intro d
    rw [List.getElem?_append_left (List.getElem?_eq_some_iff.1 found).1, found]
  cases moves with
  | start _ | refuse _ => exact ⟨c, appended _, rfl⟩
  | remove here _ _ _ _ | drop here _ _ _ _ | call here _ _ =>
    apply exists_getElem?_set (fun c => (c.leader, c.job)) here found <;> rfl
  | create _ _ | identify _ | override _ | newJob | watch _ _ _ | flag _ | cancel _
  | terminate _ _ _ _ | proceed _ _ _ => exact ⟨c, found, rfl⟩

theorem cancellation (moves : s.Moves e next added) {k : Nat} {c : Cancellation}
    (found : s.cancellations[k]? = some c) :
    ∃ c', next.cancellations[k]? = some c' ∧ (c'.leader, c'.drained) = (c.leader, c.drained) := by
  cases moves with
  | cancel _ =>
    refine ⟨c, ?_, rfl⟩
    rw [Sessions.cancel, List.getElem?_append_left (List.getElem?_eq_some_iff.1 found).1, found]
  | terminate here _ _ _ | proceed here _ _ =>
    apply exists_getElem?_set (fun c => (c.leader, c.drained)) here found <;> rfl
  | create _ _ | identify _ | override _ | newJob | start _ | refuse _ | watch _ _ _
  | remove _ _ _ _ _ | drop _ _ _ _ _ | call _ _ _ | flag _ => exact ⟨c, found, rfl⟩

theorem job (moves : s.Moves e next added) {id : Nat} {job : Job} (found : s.job? id = some job)
    (old : id ≤ s.jobs.length) :
    (e.watched? id = none ∧ next.job? id = some job) ∨
    (∃ event moved, e.watched? id = some event ∧ event ≠ .requestCancel ∧
      job.step event = some moved ∧ next.job? id = some moved ∧ added = []) ∨
    ∃ k, ∃ c ∈ s.cancellations, e = .terminate k id ∧ id ∈ c.left ∧
      next.job? id = some job.requestCancel.1 := by
  cases moves with
  | newJob | refuse _ => exact .inl ⟨rfl, job?_newJob_of_some found _⟩
  | @start n context _ child _ =>
    have fresh : id ≠ s.jobs.length + 1 := by omega
    have made := job?_newJob_of_some found (some (s.leader n).command)
    exact .inl ⟨rfl, (job?_setJob_of_ne _ fresh).trans made⟩
  | @watch event there moved unasked found' step =>
    by_cases mine : there.id = id
    · subst mine
      obtain rfl : job = there := Option.some.inj (found.symm.trans found')
      have same := Job.id_step step
      refine .inr (.inl ⟨event, moved, if_pos rfl, unasked, step, ?_, rfl⟩)
      rw [← same]
      exact job?_setJob_self (same ▸ found)
    · have other : id ≠ moved.id := by
        rw [Job.id_step step]
        exact Ne.symm mine
      exact .inl ⟨if_neg mine, (job?_setJob_of_ne s other).trans found⟩
  | @terminate k c there here found' _ left =>
    by_cases mine : there.id = id
    · subst mine
      obtain rfl : job = there := Option.some.inj (found.symm.trans found')
      have same := Job.id_requestCancel job
      refine .inr (.inr ⟨k, c, List.mem_of_getElem? here, rfl, left, ?_⟩)
      have set : (s.setJob job.requestCancel.1).job? job.requestCancel.1.id =
          some job.requestCancel.1 := job?_setJob_self (same ▸ found)
      rw [same] at set
      exact set
    · have other : id ≠ there.requestCancel.1.id := by
        rw [Job.id_requestCancel]
        exact Ne.symm mine
      exact .inl ⟨rfl, (job?_setJob_of_ne s other).trans found⟩
  | create _ _ | identify _ | override _ | remove _ _ _ _ _ | drop _ _ _ _ _ | call _ _ _ | flag _
  | cancel _ | proceed _ _ _ => exact .inl ⟨rfl, found⟩

theorem has (moves : s.Moves e next added) {p : Job → Bool} (lasting : Lasting p)
    (kept : ∀ job : Job, p job.requestCancel.1 = p job) {id : Nat} (old : id ≤ s.jobs.length)
    (h : s.Has p id) : next.Has p id := by
  obtain ⟨job, found, holds⟩ := h
  rcases moves.job found old with ⟨-, same⟩ | ⟨event, moved, -, -, step, now, -⟩ |
    ⟨_, _, -, -, -, now⟩
  · exact ⟨job, same, holds⟩
  · exact ⟨moved, now, lasting step holds⟩
  · exact ⟨_, now, (kept job).trans holds⟩

theorem isFinished (moves : s.Moves e next added) {id : Nat} (old : id ≤ s.jobs.length)
    (done : s.Has Job.isFinished id) : next.Has Job.isFinished id :=
  moves.has lasting_isFinished Job.isFinished_requestCancel old done

end Moves

end Sessions

end LoginSession

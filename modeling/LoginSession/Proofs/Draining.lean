import LoginSession.Proofs.Accounting

namespace LoginSession

namespace Sessions

variable {α : Type} {s next : Sessions α} {record added : List (Entry α)} {e : Event α}

def Has (s : Sessions α) (p : Job → Bool) (id : Nat) : Prop :=
  ∃ job, s.job? id = some job ∧ p job = true

theorem Has.of_isJobFinished {p : Job → Bool} {id : Nat} (h : s.Has p id)
    (done : s.isJobFinished id = true) : s.Has Job.isFinished id := by
  obtain ⟨job, found, -⟩ := h
  exact ⟨job, found, by simpa [isJobFinished, found] using done⟩

theorem Has.newJob {p : Job → Bool} {id : Nat} (h : s.Has p id) (command : Option String) :
    (s.newJob command).1.Has p id := by
  obtain ⟨job, found, holds⟩ := h
  refine ⟨job, ?_, holds⟩
  rw [job?_newJob, found]
  rfl

theorem Has.setJob_of_ne {p : Job → Bool} {id : Nat} {moved : Job} (h : s.Has p id)
    (other : id ≠ moved.id) : (s.setJob moved).Has p id := by
  obtain ⟨job, found, holds⟩ := h
  exact ⟨job, (job?_setJob_of_ne s other).trans found, holds⟩

theorem Has.setJob {p : Job → Bool} {id : Nat} {job moved : Job} (h : s.Has p id)
    (found : s.job? job.id = some job) (same : moved.id = job.id)
    (kept : p job = true → p moved = true) : (s.setJob moved).Has p id := by
  by_cases mine : id = moved.id
  · obtain ⟨old, here, holds⟩ := h
    subst mine
    rw [same, found] at here
    cases here
    exact ⟨moved, job?_setJob_self (same ▸ found), kept holds⟩
  · exact h.setJob_of_ne mine

/-- What no event of its watcher takes from a job. -/
def Lasting (p : Job → Bool) : Prop :=
  ∀ {job next : Job} {e : Watch.Event}, job.step e = some next → p job = true → p next = true

theorem lasting_isTracked : Lasting Job.isTracked :=
  fun moved h => (Job.isTracked_step moved).trans h

theorem lasting_isStarted : Lasting Job.isStarted := fun moved _ => Job.isStarted_step moved

theorem lasting_isFinished : Lasting Job.isFinished := Job.isFinished_step

/-- The jobs that are drained, left and awaited by the cancellations, each with what it needs to
come to its end. -/
structure Managed (s : Sessions α) (record : List (Entry α)) : Prop where
  numbered : s.jobs.map (·.id) = List.range' 1 s.jobs.length
  tracked : ∀ n, ∀ id ∈ (s.leader n).pending, s.Has Job.isTracked id
  flagged : ∀ c ∈ s.cancellations, (s.leader c.leader).cancelled = true
  recorded : ∀ c ∈ s.cancellations, ∀ id ∈ c.drained, .drained c.leader id ∈ record
  apart : (s.cancellations.flatMap (·.drained)).Nodup
  leftTracked : ∀ c ∈ s.cancellations, ∀ id ∈ c.left, s.Has Job.isTracked id
  leftDrained : ∀ c ∈ s.cancellations, c.left.Sublist c.drained
  ending : ∀ c ∈ s.cancellations, ∀ id ∈ c.drained,
    id ∈ c.left ∨ (c.awaited = some id ∧ s.Has Job.isStarted id) ∨ s.Has Job.isFinished id

theorem Managed.empty : Managed (α := α) {} [] where
  numbered := by simp
  tracked := by simp [leader]
  flagged := by simp
  recorded := by simp
  apart := List.nodup_nil
  leftTracked := by simp
  leftDrained := by simp
  ending := by simp

namespace Managed

theorem keep (h : Managed s record) (cancellations : next.cancellations = s.cancellations)
    (numbered : next.jobs.map (·.id) = List.range' 1 next.jobs.length)
    (tracked : ∀ n, ∀ id ∈ (next.leader n).pending, next.Has Job.isTracked id)
    (flagged : ∀ n, (s.leader n).cancelled = true → (next.leader n).cancelled = true)
    (kept : ∀ p, Lasting p → ∀ id, s.Has p id → next.Has p id) :
    Managed next (record ++ added) where
  numbered := numbered
  tracked := tracked
  flagged := by
    intro c hc
    rw [cancellations] at hc
    exact flagged _ (h.flagged c hc)
  recorded := by
    intro c hc id member
    rw [cancellations] at hc
    exact List.mem_append_left _ (h.recorded c hc id member)
  apart := by
    rw [cancellations]
    exact h.apart
  leftTracked := by
    intro c hc id member
    rw [cancellations] at hc
    exact kept _ lasting_isTracked id (h.leftTracked c hc id member)
  leftDrained := by
    intro c hc
    rw [cancellations] at hc
    exact h.leftDrained c hc
  ending := by
    intro c hc id member
    rw [cancellations] at hc
    exact (h.ending c hc id member).imp_right
      (.imp (.imp_right (kept _ lasting_isStarted id)) (kept _ lasting_isFinished id))

theorem alter (h : Managed s record) {k : Nat} {c a : Cancellation}
    (here : s.cancellations[k]? = some c)
    (cancellations : next.cancellations = s.cancellations.set k a)
    (leader : a.leader = c.leader) (drained : a.drained = c.drained)
    (leaders : next.leaders = s.leaders)
    (numbered : next.jobs.map (·.id) = List.range' 1 next.jobs.length)
    (tracked : ∀ n, ∀ id ∈ (next.leader n).pending, next.Has Job.isTracked id)
    (others : ∀ id, id ∉ c.drained → s.Has Job.isTracked id → next.Has Job.isTracked id)
    (leftTracked : ∀ id ∈ a.left, next.Has Job.isTracked id) (left : a.left.Sublist c.left)
    (started : ∀ id, s.Has Job.isStarted id → next.Has Job.isStarted id)
    (done : ∀ id, s.Has Job.isFinished id → next.Has Job.isFinished id)
    (ending : ∀ id ∈ c.drained, id ∈ a.left ∨ (a.awaited = some id ∧ next.Has Job.isStarted id) ∨
      next.Has Job.isFinished id) :
    Managed next record := by
  have old : c ∈ s.cancellations := List.mem_of_getElem? here
  have same : ∀ n, next.leader n = s.leader n := by
    intro n
    rw [Sessions.leader, Sessions.leader, leaders]
  have cases : ∀ d ∈ next.cancellations,
      d = a ∨ d ∈ s.cancellations ∧ ∀ id ∈ d.drained, id ∉ c.drained := by
    intro d hd
    rw [cancellations] at hd
    exact mem_set_of_nodup_flatMap h.apart here hd
  exact {
    numbered, tracked
    flagged := by
      intro d hd
      rw [same]
      rcases cases d hd with rfl | ⟨kept, -⟩
      · rw [leader]
        exact h.flagged c old
      · exact h.flagged d kept
    recorded := by
      intro d hd id member
      rcases cases d hd with rfl | ⟨kept, -⟩
      · rw [drained] at member
        rw [leader]
        exact h.recorded c old id member
      · exact h.recorded d kept id member
    apart := by
      rw [cancellations, List.flatMap_def, map_set_of_eq _ here drained, ← List.flatMap_def]
      exact h.apart
    leftTracked := by
      intro d hd id member
      rcases cases d hd with rfl | ⟨kept, other⟩
      · exact leftTracked id member
      · have theirs := (h.leftDrained d kept).subset member
        exact others id (other id theirs) (h.leftTracked d kept id member)
    leftDrained := by
      intro d hd
      rcases cases d hd with rfl | ⟨kept, -⟩
      · rw [drained]
        exact left.trans (h.leftDrained c old)
      · exact h.leftDrained d kept
    ending := by
      intro d hd id member
      rcases cases d hd with rfl | ⟨kept, -⟩
      · exact ending id (drained ▸ member)
      · exact (h.ending d kept id member).imp_right (.imp (.imp_right (started id)) (done id)) }

theorem nodup_left (h : Managed s record) {c : Cancellation} (hc : c ∈ s.cancellations) :
    c.left.Nodup :=
  (List.nodup_flatMap.1 h.apart).1 c hc |>.sublist (h.leftDrained c hc)

theorem le_of_job? (h : Managed s record) {id : Nat} {job : Job} (found : s.job? id = some job) :
    id ≤ s.jobs.length := by
  have member : job.id ∈ s.jobs.map (·.id) :=
    List.mem_map.2 ⟨job, List.mem_of_find?_eq_some found, rfl⟩
  rw [h.numbered, id_of_job? found, List.mem_range'_1] at member
  omega

theorem job?_of_mem (h : Managed s record) {job : Job} (member : job ∈ s.jobs) :
    s.job? job.id = some job := by
  have distinct : (s.jobs.map (·.id)).Nodup := h.numbered ▸ List.nodup_range'
  cases found : s.job? job.id with
  | none =>
    have absent := List.find?_eq_none.1 found job member
    simp at absent
  | some other =>
    have there := List.mem_of_find?_eq_some found
    rw [List.inj_on_of_nodup_map distinct there member (id_of_job? found)]

theorem job?_newJob_self (h : Managed s record) (command : Option String) :
    (s.newJob command).1.job? (s.jobs.length + 1) =
      some { id := s.jobs.length + 1, command } := by
  have none : s.job? (s.jobs.length + 1) = none := by
    refine Option.eq_none_iff_forall_ne_some.2 fun job found => ?_
    exact absurd (h.le_of_job? found) (Nat.not_succ_le_self _)
  rw [job?_newJob, none, if_pos rfl]
  rfl

theorem numbered_setJob (h : Managed s record) (moved : Job) :
    (s.setJob moved).jobs.map (·.id) = List.range' 1 (s.setJob moved).jobs.length := by
  have length : (s.setJob moved).jobs.length = s.jobs.length := List.length_map _
  rw [length, ← h.numbered, setJob, List.map_map]
  refine List.map_congr_left fun j _ => ?_
  by_cases same : j.id = moved.id <;> simp [same]

theorem numbered_newJob (h : Managed s record) (command : Option String) :
    (s.newJob command).1.jobs.map (·.id) = List.range' 1 (s.newJob command).1.jobs.length := by
  have length : (s.newJob command).1.jobs.length = s.jobs.length + 1 := List.length_append
  rw [length, List.range'_1_concat, ← h.numbered, newJob, List.map_append, Nat.add_comm]
  rfl

theorem terminate (h : Managed s record) (accounted : Accounted s record) {k : Nat}
    {c : Cancellation} {job : Job} (here : s.cancellations[k]? = some c)
    (found : s.job? job.id = some job) (idle : c.awaited = none) (left : job.id ∈ c.left) :
    Managed (s.terminate k c job) record := by
  have old := List.mem_of_getElem? here
  have once := h.nodup_left old
  have drained := (h.leftDrained c old).subset left
  have same := Job.id_requestCancel job
  -- letting go of the job takes nothing from any list, for its collection has been drained
  have outside : ∀ n, job.id ∉ (s.leader n).pending := by
    intro n inside
    have undrained := ((accounted.mem_pending_iff n job.id).1 inside).2.2
    exact undrained c.leader (h.recorded c old job.id drained)
  have others : ∀ {p : Job → Bool} {id : Nat}, id ≠ job.id → s.Has p id →
      (s.terminate k c job).Has p id :=
    fun {p id} other has =>
      (has.setJob_of_ne (by rwa [same]) : (s.setJob job.requestCancel.1).Has p id)
  have started : ∀ id, s.Has Job.isStarted id → (s.terminate k c job).Has Job.isStarted id :=
    fun id has =>
      (has.setJob found same fun before => (Job.isStarted_requestCancel job).trans before :
        (s.setJob job.requestCancel.1).Has Job.isStarted id)
  have done : ∀ id, s.Has Job.isFinished id → (s.terminate k c job).Has Job.isFinished id :=
    fun id has =>
      (has.setJob found same fun before => (Job.isFinished_requestCancel job).trans before :
        (s.setJob job.requestCancel.1).Has Job.isFinished id)
  refine h.alter (a := { c with
      left := c.left.erase job.id
      awaited := if job.requestCancel.2 then some job.id else none })
    here rfl rfl rfl rfl (h.numbered_setJob _) ?_ ?_ ?_ List.erase_sublist
    started done ?_
  · intro n id inside
    exact others (fun e => outside n (e ▸ inside)) (h.tracked n id inside)
  · intro id other tracked
    exact others (fun e => other (e ▸ drained)) tracked
  · intro id member
    have still := (once.mem_erase_iff).1 member
    exact others still.1 (h.leftTracked c old id still.2)
  · intro id member
    by_cases mine : id = job.id
    · subst mine
      obtain ⟨job', found', tracked⟩ := h.leftTracked c old job.id left
      rw [found] at found'
      cases found'
      -- a tracked job that is not running has finished, so there is nothing to wait for
      by_cases running : job.isRunning = true
      · have awaited : (if job.requestCancel.2 then some job.id else none) = some job.id := by
          rw [Job.requestCancel_snd, if_pos running]
        exact .inr (.inl ⟨awaited, started job.id ⟨job, found, Job.isStarted_of_isTracked tracked⟩⟩)
      · have finished : job.isFinished = true := by simpa [Job.isRunning, tracked] using running
        exact .inr (.inr (done job.id ⟨job, found, finished⟩))
    · rcases h.ending c old id member with still | ⟨awaited, -⟩ | finished
      · exact .inl (once.mem_erase_iff.2 ⟨mine, still⟩)
      · rw [idle] at awaited
        cases awaited
      · exact .inr (.inr (done id finished))

theorem proceed (h : Managed s record) {k id : Nat} {c : Cancellation}
    (here : s.cancellations[k]? = some c) (awaited : c.awaited = some id)
    (done : s.isJobFinished id = true) : Managed (s.proceed k c) record := by
  have old := List.mem_of_getElem? here
  refine h.alter (a := { c with awaited := none }) here rfl rfl rfl rfl h.numbered h.tracked
    (fun _ _ tracked => tracked) (h.leftTracked c old) (List.Sublist.refl _) (fun _ has => has)
    (fun _ has => has) ?_
  intro i member
  rcases h.ending c old i member with still | ⟨same, started⟩ | finished
  · exact .inl still
  · rw [awaited] at same
    cases same
    exact .inr (.inr (started.of_isJobFinished done))
  · exact .inr (.inr finished)

theorem cancel (h : Managed s record) (accounted : Accounted s record) {n : Nat}
    (known : n < s.leaders.length) :
    Managed (s.cancel n) (record ++ (s.leader n).pending.map fun id => .drained n id) := by
  have leader := leader_cancel (s := s) known
  have cases : ∀ c ∈ (s.cancel n).cancellations, c ∈ s.cancellations ∨
      c = { leader := n, drained := (s.leader n).pending, left := (s.leader n).pending } := by
    intro c hc
    exact (List.mem_append.1 hc).imp_right List.mem_singleton.1
  refine ⟨h.numbered, ?_, ?_, ?_, ?_, ?_, ?_, ?_⟩
  · intro m id inside
    rw [leader] at inside
    split at inside
    · cases inside
    · exact h.tracked m id inside
  · intro c hc
    rw [leader]
    split
    · rfl
    · rename_i other
      rcases cases c hc with old | rfl
      · exact h.flagged c old
      · exact absurd rfl other
  · intro c hc id member
    rcases cases c hc with old | rfl
    · exact List.mem_append_left _ (h.recorded c old id member)
    · exact List.mem_append_right _ (List.mem_map.2 ⟨id, member, rfl⟩)
  · have all : (s.cancel n).cancellations.flatMap (·.drained) =
        s.cancellations.flatMap (·.drained) ++ (s.leader n).pending := by
      simp [Sessions.cancel, Leader.cancel]
    rw [all, List.nodup_append]
    refine ⟨h.apart, accounted.once n, ?_⟩
    rintro a earlier b now rfl
    obtain ⟨c, hc, member⟩ := List.mem_flatMap.1 earlier
    exact ((accounted.mem_pending_iff n a).1 now).2.2 c.leader (h.recorded c hc a member)
  · intro c hc id member
    rcases cases c hc with old | rfl
    · exact h.leftTracked c old id member
    · exact h.tracked n id member
  · intro c hc
    rcases cases c hc with old | rfl
    · exact h.leftDrained c old
    · exact List.Sublist.refl _
  · intro c hc id member
    rcases cases c hc with old | rfl
    · exact h.ending c old id member
    · exact .inl member

theorem adjust (h : Managed s record) {n : Nat} (known : n < s.leaders.length) {l : Leader}
    (pending : l.pending = (s.leader n).pending)
    (flagged : (s.leader n).cancelled = true → l.cancelled = true) :
    Managed (s.setLeader n l) (record ++ added) := by
  refine h.keep rfl h.numbered (fun m id inside => ?_) (fun m up => ?_) (fun _ _ _ has => has)
  · rw [leader_setLeader known] at inside
    split at inside
    · rw [pending] at inside
      exact h.tracked n id inside
    · exact h.tracked m id inside
  · rw [leader_setLeader known]
    split
    · rename_i same
      exact flagged (same ▸ up)
    · exact up

theorem start (h : Managed s record) {n : Nat} (known : n < s.leaders.length) (context : α)
    (child : Child) : Managed (s.started n context child) (record ++ added) := by
  have made : Managed (s.newJob (some (s.leader n).command)).1 (record ++ added) :=
    h.keep rfl (h.numbered_newJob _) (fun n id inside => (h.tracked n id inside).newJob _)
      (fun _ flagged => flagged) (fun _ _ _ has => has.newJob _)
  have fresh : ∀ {p id}, s.Has p id → id ≠ s.jobs.length + 1 := by
    rintro p id ⟨job, found, -⟩ rfl
    exact absurd (h.le_of_job? found) (Nat.not_succ_le_self _)
  have found := h.job?_newJob_self (some (s.leader n).command)
  have kept : ∀ {p id}, s.Has p id → (s.started n context child).Has p id :=
    fun has => (has.newJob _).setJob_of_ne (fresh has)
  refine h.keep rfl (made.numbered_setJob _) (fun m id inside => ?_) (fun m up => ?_)
    (fun _ _ _ has => kept has)
  · rw [leader_started known] at inside
    split at inside
    · rcases List.mem_append.1 inside with old | new
      · exact kept (h.tracked n id old)
      · rw [List.mem_singleton.1 new]
        let job : Job :=
          { id := s.jobs.length + 1
            command := some (s.leader n).command
            running := some { child } }
        exact ⟨job, @job?_setJob_self _ _ job _ found, rfl⟩
    · exact kept (h.tracked m id inside)
  · rw [leader_started known]
    split
    · rename_i same
      exact same ▸ up
    · exact up

theorem step (h : Managed s record) (accounted : Accounted s record)
    (st : s.step e = some (next, added)) : Managed next (record ++ added) := by
  cases moves_of_step st with
  | create empty _ =>
    refine h.keep rfl h.numbered (fun n id inside => ?_) (fun n flagged => ?_)
      (fun _ _ _ has => has)
    · rw [leader_newLeader] at inside
      split at inside
      · rw [empty] at inside
        cases inside
      · exact h.tracked n id inside
    · rw [leader_newLeader]
      split
      · rename_i last
        rw [leader_of_le s (Nat.le_of_eq last.symm)] at flagged
        cases flagged
      · exact flagged
  | identify known | override known => exact h.adjust known rfl fun flagged => flagged
  | flag known => exact h.adjust known rfl fun _ => rfl
  | start known => exact h.start known _ _
  | newJob | refuse _ =>
    exact h.keep rfl (h.numbered_newJob _) (fun n id inside => (h.tracked n id inside).newJob _)
      (fun _ flagged => flagged) (fun _ _ _ has => has.newJob _)
  | watch _ found moved =>
    have same := Job.id_step moved
    exact h.keep rfl (h.numbered_setJob _)
      (fun n id inside => (h.tracked n id inside).setJob found same (lasting_isTracked moved))
      (fun _ flagged => flagged) (fun _ lasting _ has => has.setJob found same (lasting moved))
  | @remove k c _ _ _ _ _ removed =>
    have leader := leader_remove removed k { c with claimed := true }
    refine h.keep rfl h.numbered (fun n id inside => ?_) (fun n flagged => ?_)
      (fun _ _ _ has => has)
    · rw [leader] at inside
      dsimp only at inside
      split at inside
      · exact h.tracked n id (List.mem_of_mem_erase inside)
      · exact h.tracked n id inside
    · rw [leader]
      exact flagged
  | drop _ _ _ _ _ | call _ _ _ =>
    exact h.keep rfl h.numbered h.tracked (fun _ flagged => flagged) (fun _ _ _ has => has)
  | cancel known => exact h.cancel accounted known
  | terminate here found idle left =>
    rw [List.append_nil]
    exact h.terminate accounted here found idle left
  | proceed here awaited done =>
    rw [List.append_nil]
    exact h.proceed here awaited done

theorem of_reached (reached : Reached s record) : Managed s record := by
  induction reached with
  | start => exact empty
  | step before st managed => exact managed.step (.of_reached before) st

end Managed

end Sessions

end LoginSession

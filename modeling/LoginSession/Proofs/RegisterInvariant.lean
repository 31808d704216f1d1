import LoginSession.Proofs.Bookkeeping

namespace LoginSession

namespace Manager

variable {α : Type} {m next : Manager α} {record added : List Entry} {e : Event α}

structure Placed (m : Manager α) : Prop where
  numbered : m.places.length = m.registry.opened
  apart : m.places.Nodup
  known : ∀ place ∈ m.places, place < m.sessions.leaders.length

namespace Placed

theorem keep (h : Placed m) (places : next.places = m.places)
    (opened : next.registry.opened = m.registry.opened)
    (grown : m.sessions.leaders.length ≤ next.sessions.leaders.length) : Placed next where
  numbered := by rw [places, opened, h.numbered]
  apart := places ▸ h.apart
  known place member := Nat.lt_of_lt_of_le (h.known place (places ▸ member)) grown

theorem step (h : Placed m) (moves : m.Moves e next added) : Placed next := by
  have grown := moves.length_leaders_le
  cases moves with
  | opened _ =>
    -- the place of the new leader is past all that were known
    have new : m.sessions.leaders.length ∉ m.places := fun member =>
      Nat.lt_irrefl _ (h.known _ member)
    refine ⟨?_, ?_, fun place member => ?_⟩
    · rw [List.length_append, h.numbered]
      rfl
    · exact List.concat_eq_append ▸ h.apart.concat new
    · refine Nat.lt_of_lt_of_eq ?_ List.length_append.symm
      rcases List.mem_append.1 member with old | last
      · exact Nat.lt_succ_of_lt (h.known place old)
      · rw [List.mem_singleton.1 last]
        exact Nat.lt_succ_self _
  | elsewhere _ | refused _ | removed _ | missed _ | flag _ _ _ _ | cancel _ _ _ _
  | finish _ _ _ _ | get | getOrError | count | cookies => exact h.keep rfl rfl grown

end Placed

structure Invariant (m : Manager α) (record : List Entry) : Prop where
  reached : ∃ told, Sessions.Reached m.sessions told
  placed : Placed m
  books : Books m.registry m.closings record
  cancelling : ∀ c ∈ m.closings, ∀ j, c.stage = .cancelling j →
    ∃ cancellation, m.sessions.cancellations[j]? = some cancellation
  fits : AllFit record

namespace Invariant

theorem start (config : Config) : Invariant ({ registry := { config } } : Manager α) [] where
  reached := ⟨[], .start⟩
  placed := ⟨rfl, .nil, by simp⟩
  books := .start config
  cancelling := by simp
  fits := by simp [AllFit]

theorem reached_step (h : Invariant m record) (moves : m.Moves e next added) :
    ∃ told, Sessions.Reached next.sessions told := by
  obtain ⟨told, reached⟩ := h.reached
  rcases moves.sessions with same | ⟨_, _, st⟩
  · exact ⟨told, same ▸ reached⟩
  · exact ⟨_, reached.step st⟩

theorem cancelling_step (h : Invariant m record) (moves : m.Moves e next added) :
    ∀ c ∈ next.closings, ∀ j, c.stage = .cancelling j →
      ∃ cancellation, next.sessions.cancellations[j]? = some cancellation := by
  have old : ∀ c ∈ m.closings, ∀ j, c.stage = .cancelling j →
      ∃ cancellation, next.sessions.cancellations[j]? = some cancellation :=
    fun c member j stage => moves.cancellation (h.cancelling c member j stage)
  intro c member j stage
  cases moves with
  | elsewhere _ | opened _ | refused _ | missed _ | get | getOrError | count | cookies =>
    exact old c member j stage
  | removed _ =>
    rcases List.mem_append.1 member with before | new
    · exact old c before j stage
    · rw [List.mem_singleton.1 new] at stage
      cases stage
  | flag _ _ _ _ | finish _ _ _ _ =>
    rcases List.mem_or_eq_of_mem_set member with before | rfl
    · exact old c before j stage
    · cases stage
  | @cancel k place _ sessions _ _ _ _ st =>
    rcases List.mem_or_eq_of_mem_set member with before | rfl
    · exact old c before j stage
    · -- what is waited for is the cancellation that has just been made
      obtain rfl := Closing.Stage.cancelling.inj stage
      cases Sessions.moves_of_step st with
      | cancel _ => exact ⟨_, List.getElem?_concat_length⟩

theorem step (h : Invariant m record) (st : m.step e = some (next, added)) :
    Invariant next (record ++ added) := by
  have moves := moves_of_step st
  refine ⟨h.reached_step moves, h.placed.step moves, h.books.step moves, h.cancelling_step moves, ?_⟩
  rcases h.books.fits moves with rfl | ⟨entry, rfl, fits⟩
  · rw [List.append_nil]
    exact h.fits
  · exact allFit_concat.2 ⟨h.fits, fits⟩

theorem of_reached (reached : Reached m record) : Invariant m record := by
  induction reached with
  | start config => exact .start config
  | step _ st ih => exact ih.step st

end Invariant

end Manager

end LoginSession

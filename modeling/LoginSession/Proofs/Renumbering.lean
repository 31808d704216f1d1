import LoginSession.Session.Solo
import Mathlib.Data.List.Basic

namespace LoginSession

section

variable {own more ids : List Nat} {id a : Nat}

theorem eq_of_jobNumber (member : a ∈ own) (same : jobNumber own a = jobNumber own id) : a = id :=
  (List.idxOf_inj member).1 (Nat.succ.inj same)

theorem jobNumber_append (member : id ∈ own) : jobNumber (own ++ more) id = jobNumber own id := by
  rw [jobNumber, List.idxOf_append_of_mem member, jobNumber]

theorem jobNumber_concat_self (new : id ∉ own) :
    jobNumber (own ++ [id]) id = own.length + 1 := by
  rw [jobNumber, List.idxOf_append_of_notMem new, List.idxOf_cons_self, Nat.add_zero]

theorem map_jobNumber_append (inside : ids ⊆ own) :
    ids.map (jobNumber (own ++ more)) = ids.map (jobNumber own) :=
  List.map_congr_left fun _ member => jobNumber_append (inside member)

theorem mem_map_jobNumber (inside : ids ⊆ own) :
    jobNumber own id ∈ ids.map (jobNumber own) ↔ id ∈ ids := by
  refine ⟨fun member => ?_, List.mem_map_of_mem⟩
  obtain ⟨a, here, same⟩ := List.mem_map.1 member
  exact eq_of_jobNumber (inside here) same ▸ here

theorem map_jobNumber_erase (inside : ids ⊆ own) (id : Nat) :
    (ids.erase id).map (jobNumber own) = (ids.map (jobNumber own)).erase (jobNumber own id) := by
  induction ids with
  | nil => rfl
  | cons a ids ih =>
    obtain ⟨member, inside⟩ := List.cons_subset.1 inside
    by_cases same : a = id
    · subst same
      simp
    · have other : jobNumber own a ≠ jobNumber own id := fun e => same (eq_of_jobNumber member e)
      rw [List.erase_cons_tail (by simpa using same), List.map_cons, List.map_cons,
        List.erase_cons_tail (by simpa using other), ih inside]

end

section

variable {β : Type} {f : β → Nat} {xs : List β} {x y : β} {n k : Nat}

theorem exists_split (here : xs[k]? = some x) :
    ∃ front back, xs = front ++ x :: back ∧ front.length = k := by
  obtain ⟨bound, rfl⟩ := List.getElem?_eq_some_iff.1 here
  obtain ⟨front, back, split, length, -⟩ := @List.exists_of_set _ k xs[k] xs bound
  exact ⟨front, back, split, length⟩

theorem placeOf_append (front back : List β) : placeOf ((front ++ back).map f) n front.length =
    (front.filter (f · = n)).length := by
  rw [placeOf, List.map_append, List.take_left' (List.length_map _), List.count,
    List.countP_map, List.countP_eq_length_filter]
  rfl

theorem placeOf_length (xs : List β) :
    placeOf (xs.map f) n xs.length = (xs.filter (f · = n)).length := by
  have all := placeOf_append (f := f) (n := n) xs []
  rwa [List.append_nil] at all

theorem getElem?_placeOf (here : xs[k]? = some x) (mine : f x = n) :
    (xs.filter (f · = n))[placeOf (xs.map f) n k]? = some x := by
  obtain ⟨front, back, rfl, rfl⟩ := exists_split here
  rw [placeOf_append, List.filter_append, List.filter_cons_of_pos (by simpa using mine),
    List.getElem?_append_right (Nat.le_refl _), Nat.sub_self, List.getElem?_cons_zero]

theorem filter_set_own (here : xs[k]? = some x) (mine : f x = n) (still : f y = n) :
    (xs.set k y).filter (f · = n) =
      (xs.filter (f · = n)).set (placeOf (xs.map f) n k) y := by
  obtain ⟨front, back, rfl, rfl⟩ := exists_split here
  rw [placeOf_append, List.set_append_right _ _ (Nat.le_refl _), Nat.sub_self, List.set_cons_zero,
    List.filter_append, List.filter_append, List.filter_cons_of_pos (by simpa using still),
    List.filter_cons_of_pos (by simpa using mine), List.set_append_right _ _ (Nat.le_refl _),
    Nat.sub_self, List.set_cons_zero]

theorem filter_set_other (here : xs[k]? = some x) (other : f x ≠ n)
    (still : f y = f x) : (xs.set k y).filter (f · = n) = xs.filter (f · = n) := by
  obtain ⟨front, back, rfl, rfl⟩ := exists_split here
  rw [List.set_append_right _ _ (Nat.le_refl _), Nat.sub_self, List.set_cons_zero,
    List.filter_append, List.filter_append, List.filter_cons_of_neg (by simpa [still] using other),
    List.filter_cons_of_neg (by simpa using other)]

theorem filter_concat_other (other : f y ≠ n) :
    (xs ++ [y]).filter (f · = n) = xs.filter (f · = n) := by
  rw [List.filter_append, List.filter_singleton, decide_eq_false other]
  exact List.append_nil _

theorem filter_concat_own (mine : f y = n) :
    (xs ++ [y]).filter (f · = n) = xs.filter (f · = n) ++ [y] := by
  rw [List.filter_append, List.filter_singleton, decide_eq_true mine]
  rfl

theorem placeOf?_eq_some (here : xs[k]? = some x) (mine : f x = n) :
    placeOf? (xs.map f) n k = some (placeOf (xs.map f) n k) := by
  rw [placeOf?, List.getElem?_map, here, Option.map_some, mine, if_pos rfl]

theorem placeOf?_eq_none (here : xs[k]? = some x) (other : f x ≠ n) :
    placeOf? (xs.map f) n k = none := by
  rw [placeOf?, List.getElem?_map, here, Option.map_some, if_neg (by simpa using other)]

theorem exists_of_placeOf? {place : Nat} (there : placeOf? (xs.map f) n k = some place) :
    ∃ x, xs[k]? = some x ∧ f x = n ∧ place = placeOf (xs.map f) n k := by
  obtain ⟨owned, same⟩ := Option.ite_none_right_eq_some.1 there
  rw [List.getElem?_map] at owned
  obtain ⟨x, here, mine⟩ := Option.map_eq_some_iff.1 owned
  exact ⟨x, here, mine, (Option.some.inj same).symm⟩

theorem ne_of_placeOf? {γ : Type} {g : Nat → γ} (here : xs[k]? = some x)
    (none : (placeOf? (xs.map f) n k).map g = none) : f x ≠ n := by
  intro mine
  rw [placeOf?_eq_some here mine] at none
  cases none

end

theorem Collection.renamed_append {α : Type} {ρ : Renaming} {own more : List Nat}
    {c : Collection α} (mine : c.job ∈ own) : c.renamed ρ (own ++ more) = c.renamed ρ own := by
  rw [renamed, renamed, jobNumber_append mine]

theorem Cancellation.renumbered_append {own more : List Nat} {c : Cancellation}
    (drained : c.drained ⊆ own) (left : c.left ⊆ c.drained)
    (awaited : ∀ id, c.awaited = some id → id ∈ c.drained) :
    c.renumbered (own ++ more) = c.renumbered own := by
  have waited : c.awaited.map (jobNumber (own ++ more)) = c.awaited.map (jobNumber own) :=
    Option.map_congr fun id waits => jobNumber_append (drained (awaited id waits))
  rw [renumbered, renumbered, map_jobNumber_append drained,
    map_jobNumber_append (List.Subset.trans left drained), waited]

theorem Leader.remove?_renamed {ρ : Renaming} {own : List Nat} {l : Leader}
    (inside : l.pending ⊆ own) (id : Nat) : (l.renamed ρ own).remove? (jobNumber own id) =
      (l.remove? id).map (·.renamed ρ own) := by
  unfold remove?
  have member : jobNumber own id ∈ (l.renamed ρ own).pending ↔ id ∈ l.pending :=
    mem_map_jobNumber inside
  by_cases here : id ∈ l.pending
  · rw [if_pos (member.2 here), if_pos here]
    simp only [renamed, Option.map_some, map_jobNumber_erase inside]
  · rw [if_neg (mt member.1 here), if_neg here, Option.map_none]

namespace Job

variable {own more : List Nat} {j : Job}

theorem renumbered_append (mine : j.id ∈ own) : j.renumbered (own ++ more) = j.renumbered own := by
  rw [renumbered, renumbered, jobNumber_append mine]

theorem step_renumbered (own : List Nat) (j : Job) (e : Watch.Event) :
    (j.renumbered own).step e = (j.step e).map (·.renumbered own) := by
  rw [step, step, Option.map_bind]
  cases running : j.running with
  | none => simp [renumbered, running]
  | some r => simp [renumbered, running, Function.comp_def]

theorem requestCancel_renumbered (own : List Nat) (j : Job) :
    (j.renumbered own).requestCancel =
      (j.requestCancel.1.renumbered own, j.requestCancel.2) := by
  have same : (j.renumbered own).isRunning = j.isRunning := rfl
  unfold requestCancel
  rw [same]
  cases running : j.running with
  | none => simp [renumbered, running]
  | some r => simp [renumbered, running]

end Job

end LoginSession

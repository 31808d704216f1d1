import LoginSession.Proofs.Merge
import Mathlib.Data.Finset.Card

namespace LoginSession.Overrides

variable {o : Overrides} {ps : List Parameter} {p : Parameter}

theorem ofList_append (ps rest : List Parameter) :
    ofList (ps ++ rest) = rest.foldl insert (ofList ps) :=
  List.foldl_append

theorem ofList_concat (ps : List Parameter) (p : Parameter) :
    ofList (ps ++ [p]) = (ofList ps).insert p :=
  ofList_append ps [p]

section Keys

theorem keys_insert (o : Overrides) (p : Parameter) : (o.insert p).keys =
    if p.key ∈ protectedKeys ∨ p.key ∈ o.keys then o.keys else o.keys ++ [p.key] := by
  rw [insert]
  by_cases isProtected : p.key ∈ protectedKeys
  · rw [if_pos isProtected, if_pos (.inl isProtected)]
  · rw [if_neg isProtected, keys, map_key_assign, ← keys]
    simp only [isProtected, false_or]

theorem mem_keys_ofList {key : String} :
    key ∈ (ofList ps).keys ↔ key ∈ ps.map (·.key) ∧ key ∉ protectedKeys := by
  -- from the end of the list, which is where a store grows
  induction ps using List.reverseRecOn with
  | nil => simp [ofList, keys]
  | append_singleton ps p ih =>
    rw [ofList_concat, keys_insert, List.map_append, List.mem_append, List.map_singleton,
      List.mem_singleton]
    split
    · rename_i skipped
      rw [ih]
      refine ⟨fun known => ⟨.inl known.1, known.2⟩, ?_⟩
      rintro ⟨old | rfl, free⟩
      · exact ⟨old, free⟩
      · exact ih.1 (skipped.resolve_left free)
    · rename_i fresh
      rw [List.mem_append, List.mem_singleton, ih]
      refine ⟨?_, fun known => known.1.imp (⟨·, known.2⟩) id⟩
      rintro (known | rfl)
      · exact ⟨.inl known.1, known.2⟩
      · exact ⟨.inr rfl, fun isProtected => fresh (.inl isProtected)⟩

theorem ordered_keys_ofList (ps : List Parameter) : (ofList ps).keys.Pairwise fun a b =>
    (ps.map (·.key)).idxOf a < (ps.map (·.key)).idxOf b := by
  induction ps using List.reverseRecOn with
  | nil => exact List.Pairwise.nil
  | append_singleton ps p ih =>
    have known : ∀ a ∈ (ofList ps).keys, a ∈ ps.map (·.key) :=
      fun a member => (mem_keys_ofList.1 member).1
    have kept : (ofList ps).keys.Pairwise fun a b =>
        ((ps ++ [p]).map (·.key)).idxOf a < ((ps ++ [p]).map (·.key)).idxOf b := by
      refine ih.imp_of_mem fun {a b} ha hb before => ?_
      rwa [List.map_append, List.idxOf_append_of_mem (known a ha),
        List.idxOf_append_of_mem (known b hb)]
    rw [ofList_concat, keys_insert]
    split
    · exact kept
    · rename_i fresh
      rw [not_or] at fresh
      have new : p.key ∉ ps.map (·.key) := fun old => fresh.2 (mem_keys_ofList.2 ⟨old, fresh.1⟩)
      refine List.pairwise_append.2 ⟨kept, List.pairwise_singleton _ _, ?_⟩
      intro a ha b hb
      rw [List.mem_singleton.1 hb, List.map_append, List.idxOf_append_of_mem (known a ha),
        List.idxOf_append_of_notMem new]
      exact Nat.lt_add_right _ (List.idxOf_lt_length_of_mem (known a ha))

end Keys

section Values

theorem get?_assign (key : String) (p : Parameter) (ps : List Parameter) :
    ((assign p ps).find? (·.key = key)).map (·.value) =
      if p.key = key then some p.value else (ps.find? (·.key = key)).map (·.value) := by
  induction ps with
  | nil => by_cases same : p.key = key <;> simp [assign, same]
  | cons q ps ih =>
    rw [assign]
    by_cases known : q.key = p.key
    · rw [if_pos known]
      by_cases here : p.key = key
      · simp [known.trans here, here]
      · have apart : q.key ≠ key := known ▸ here
        simp [here, apart]
    · rw [if_neg known]
      by_cases here : q.key = key
      · have apart : p.key ≠ key := fun same => known (here.trans same.symm)
        simp [here, apart]
      · simpa [here] using ih

theorem get?_insert (o : Overrides) (p : Parameter) (key : String) : (o.insert p).get? key =
    if p.key = key ∧ key ∉ protectedKeys then some p.value else o.get? key := by
  rw [insert]
  by_cases isProtected : p.key ∈ protectedKeys
  · rw [if_pos isProtected, if_neg]
    rintro ⟨rfl, free⟩
    exact free isProtected
  · rw [if_neg isProtected, get?, get?_assign, ← get?]
    by_cases same : p.key = key
    · rw [if_pos same, if_pos ⟨same, same ▸ isProtected⟩]
    · rw [if_neg same, if_neg fun both => same both.1]

theorem get?_ofList (ps : List Parameter) (key : String) : (ofList ps).get? key =
    if key ∈ protectedKeys then none else (⟨ps⟩ : ParameterSet).get? key := by
  induction ps using List.reverseRecOn with
  | nil => simp [ofList, get?, ParameterSet.get?]
  | append_singleton ps p ih =>
    have pushed := ParameterSet.get?_push ⟨ps⟩ p key
    rw [ParameterSet.push] at pushed
    rw [ofList_concat, get?_insert, ih, pushed]
    by_cases isProtected : key ∈ protectedKeys <;> simp [isProtected]

theorem WellFormed.get?_of_mem (wf : o.WellFormed) (member : p ∈ o.entries) :
    o.get? p.key = some p.value := by
  rw [get?, ← List.head?_filter, filter_key_of_nodup wf.nodup member]
  rfl

theorem exists_last_of_mem_ofList (member : p ∈ (ofList ps).entries) :
    ∃ before after, ps = before ++ p :: after ∧ ∀ q ∈ after, q.key ≠ p.key := by
  have found := (wellFormed_ofList ps).get?_of_mem member
  have free := (mem_keys_ofList.1 (List.mem_map_of_mem member)).2
  rw [get?_ofList, if_neg free, ParameterSet.get?, Option.map_eq_some_iff] at found
  obtain ⟨⟨key, value⟩, last, rfl⟩ := found
  obtain ⟨same, after, before, split, others⟩ := List.find?_eq_some_iff_append.1 last
  obtain rfl : key = p.key := of_decide_eq_true same
  refine ⟨before.reverse, after.reverse, ?_, ?_⟩
  · rw [← List.reverse_inj, split]
    simp
  · intro q later
    simpa using others q (List.mem_reverse.1 later)

end Values

theorem size_ofList (ps : List Parameter) : (ofList ps).size =
    ((ps.map (·.key)).filter (· ∉ protectedKeys)).toFinset.card := by
  have same : ((ps.map (·.key)).filter (· ∉ protectedKeys)).toFinset =
      (ofList ps).keys.toFinset := by
    ext key
    simp only [List.mem_toFinset, mem_keys_ofList, List.mem_filter, decide_eq_true_eq]
  rw [same, List.toFinset_card_of_nodup (wellFormed_ofList ps).nodup, keys, List.length_map, size]

section Rebuilding

theorem assign_of_not_mem (fresh : p.key ∉ ps.map (·.key)) : assign p ps = ps ++ [p] := by
  induction ps with
  | nil => rfl
  | cons q ps ih =>
    rw [List.map_cons, List.mem_cons, not_or] at fresh
    rw [assign, if_neg (Ne.symm fresh.1), ih fresh.2, List.cons_append]

theorem foldl_insert_of_wellFormed {done rest : List Parameter}
    (wf : WellFormed ⟨done ++ rest⟩) : rest.foldl insert ⟨done⟩ = ⟨done ++ rest⟩ := by
  induction rest generalizing done with
  | nil => rw [List.append_nil, List.foldl_nil]
  | cons p rest ih =>
    have split : done ++ p :: rest = done ++ [p] ++ rest := by simp
    have free : p.key ∉ protectedKeys := fun isProtected =>
      wf.unprotected _ isProtected (by simp [keys])
    have fresh : p.key ∉ done.map (·.key) := by
      have nodup := wf.nodup
      rw [keys, List.map_append, List.nodup_append] at nodup
      exact fun old => nodup.2.2 _ old _ (by simp) rfl
    rw [split] at wf ⊢
    rw [List.foldl_cons, insert, if_neg free, assign_of_not_mem fresh, ih wf]

theorem WellFormed.ofList_entries (wf : o.WellFormed) : ofList o.entries = o :=
  foldl_insert_of_wellFormed wf

end Rebuilding

/-- A store of overrides is the ordered map of its list. Built from its own entries it is the same
store, so more overrides can be added to the entries in the place of the list. -/
theorem ofList_lastWins (ps : List Parameter) :
    let o := ofList ps
    let given := ps.map (·.key)
    (∀ key, key ∈ o.keys ↔ key ∈ given ∧ key ∉ protectedKeys) ∧
    o.keys.Nodup ∧
    o.keys.Pairwise (fun a b => given.idxOf a < given.idxOf b) ∧
    (∀ p ∈ o.entries, ∃ before after, ps = before ++ p :: after ∧ ∀ q ∈ after, q.key ≠ p.key) ∧
    (∀ key, o.get? key =
      if key ∈ protectedKeys then none else (⟨ps⟩ : ParameterSet).get? key) ∧
    (∀ key, o.contains key = true ↔ (o.get? key).isSome) ∧
    o.size = (given.filter (· ∉ protectedKeys)).toFinset.card ∧
    ofList o.entries = o ∧
    ∀ rest, ofList (ps ++ rest) = ofList (o.entries ++ rest) := by
  intro o given
  have wf : o.WellFormed := wellFormed_ofList ps
  refine ⟨fun _ => mem_keys_ofList, wf.nodup, ordered_keys_ofList ps,
    fun _ => exists_last_of_mem_ofList, get?_ofList ps, o.contains_iff_get?, size_ofList ps,
    wf.ofList_entries, fun rest => ?_⟩
  rw [ofList_append, ofList_append, wf.ofList_entries]

end LoginSession.Overrides

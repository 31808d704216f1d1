import LoginSession.Parameter.Override

namespace LoginSession.Overrides

def keys (o : Overrides) : List String := o.entries.map (·.key)

theorem contains_iff_mem_keys (o : Overrides) (key : String) :
    o.contains key = true ↔ key ∈ o.keys := by
  simp [contains, keys]

theorem map_key_assign (p : Parameter) (ps : List Parameter) :
    (assign p ps).map (·.key) =
      if p.key ∈ ps.map (·.key) then ps.map (·.key) else ps.map (·.key) ++ [p.key] := by
  induction ps with
  | nil => simp [assign]
  | cons q rest ih =>
    by_cases same : q.key = p.key
    · simp [assign, same]
    · have other : p.key ≠ q.key := fun h => same h.symm
      simp only [assign, same, if_false, List.map_cons, ih, List.mem_cons, other, false_or]
      split <;> rfl

/-- What every way to build a store keeps. -/
structure WellFormed (o : Overrides) : Prop where
  nodup : o.keys.Nodup
  unprotected : ∀ key ∈ protectedKeys, key ∉ o.keys

theorem WellFormed.empty : WellFormed {} := ⟨List.nodup_nil, by simp [keys]⟩

theorem WellFormed.insert {o : Overrides} (h : o.WellFormed) (p : Parameter) :
    (o.insert p).WellFormed := by
  unfold Overrides.insert
  split
  · exact h
  · rename_i free
    have keysAfter := map_key_assign p o.entries
    by_cases known : p.key ∈ o.entries.map (·.key)
    · rw [if_pos known] at keysAfter
      exact ⟨by rw [keys, keysAfter]; exact h.nodup, by rw [keys, keysAfter]; exact h.unprotected⟩
    · rw [if_neg known] at keysAfter
      constructor
      · rw [keys, keysAfter, List.nodup_append]
        refine ⟨h.nodup, by simp, ?_⟩
        intro a ha b hb same
        rw [List.mem_singleton] at hb
        exact known (hb ▸ same ▸ ha)
      · intro key hk member
        rw [keys, keysAfter, List.mem_append, List.mem_singleton] at member
        rcases member with member | rfl
        · exact h.unprotected key hk member
        · exact free hk

theorem wellFormed_ofList (ps : List Parameter) : (ofList ps).WellFormed := by
  suffices ∀ o : Overrides, o.WellFormed → (ps.foldl Overrides.insert o).WellFormed from
    this {} .empty
  induction ps with
  | nil => exact fun _ h => h
  | cons p ps ih => exact fun o h => ih _ (h.insert p)

theorem filter_key_of_nodup {ps : List Parameter} (nodup : (ps.map (·.key)).Nodup) {p : Parameter}
    (hp : p ∈ ps) : ps.filter (·.key = p.key) = [p] := by
  induction ps with
  | nil => simp at hp
  | cons q rest ih =>
    rw [List.map_cons, List.nodup_cons] at nodup
    rcases List.mem_cons.1 hp with rfl | later
    · have none : rest.filter (·.key = p.key) = [] := by
        rw [List.filter_eq_nil_iff]
        intro r hr same
        exact nodup.1 (of_decide_eq_true same ▸ List.mem_map_of_mem hr)
      simp [none]
    · have other : q.key ≠ p.key := fun same => nodup.1 (same ▸ List.mem_map_of_mem later)
      simp only [List.filter_cons, other, decide_false, Bool.false_eq_true, if_false]
      exact ih nodup.2 later

end LoginSession.Overrides

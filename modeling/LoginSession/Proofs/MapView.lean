import LoginSession.Proofs.Merge
import Mathlib.Data.List.Induction
import Mathlib.Data.String.Basic

namespace LoginSession

namespace ParameterMap

variable {map other lower upper : ParameterMap} {key : String} {value : Value}

def keys (map : ParameterMap) : List String := map.map (·.1)

def Ascends (map : ParameterMap) : Prop := map.Pairwise fun a b => a.1 < b.1

/-- The upper map, with the entries of the lower one that it leaves visible. -/
def overlay (lower upper : ParameterMap) : ParameterMap :=
  upper.foldr (fun entry map => insert entry.1 entry.2 map) lower

theorem get?_cons (k : String) (v : Value) (rest : ParameterMap) (key : String) :
    get? ((k, v) :: rest) key = if key = k then some v else rest.get? key := by
  by_cases same : key = k
  · simp [get?, same]
  · have differ : (key == k) = false := beq_false_of_ne same
    simp [get?, List.lookup_cons, differ, same]

theorem isSome_get?_iff : (map.get? key).isSome = true ↔ key ∈ map.keys := by
  induction map with
  | nil => simp [get?, keys]
  | cons entry rest ih =>
    rw [get?_cons, keys, List.map_cons, List.mem_cons, ← keys, ← ih]
    by_cases same : key = entry.1 <;> simp [same]

theorem get?_insert (key k : String) (value : Value) (map : ParameterMap) :
    (insert key value map).get? k = if k = key then some value else map.get? k := by
  induction map with
  | nil => exact get?_cons key value [] k
  | cons entry rest ih =>
    obtain ⟨k', v⟩ := entry
    rw [insert]
    split
    · exact get?_cons key value _ k
    · split
      · rename_i same
        rw [get?_cons, get?_cons, same]
        split <;> rfl
      · rename_i other
        rw [get?_cons, get?_cons, ih]
        by_cases here : k = key
        · have elsewhere : k ≠ k' := fun there => other (here.symm.trans there)
          rw [if_neg elsewhere, if_pos here, if_pos here]
        · rw [if_neg here, if_neg here]

theorem mem_keys_insert {k : String} :
    k ∈ (insert key value map).keys ↔ k = key ∨ k ∈ map.keys := by
  rw [← isSome_get?_iff, ← isSome_get?_iff, get?_insert]
  by_cases same : k = key <;> simp [same]

theorem Ascends.insert (ascends : map.Ascends) (key : String) (value : Value) :
    (insert key value map).Ascends := by
  induction map with
  | nil => exact List.pairwise_singleton _ _
  | cons entry rest ih =>
    obtain ⟨k, v⟩ := entry
    have ⟨first, later⟩ := List.pairwise_cons.1 ascends
    rw [ParameterMap.insert]
    split
    · rename_i before
      refine List.pairwise_cons.2 ⟨fun e member => ?_, ascends⟩
      rcases List.mem_cons.1 member with rfl | inside
      · exact before
      · exact lt_trans before (first e inside)
    · split
      · rename_i same
        exact List.pairwise_cons.2 ⟨fun e inside => same ▸ first e inside, later⟩
      · rename_i notBefore other
        have after : k < key := lt_of_le_of_ne (not_lt.1 notBefore) (Ne.symm other)
        refine List.pairwise_cons.2 ⟨fun e member => ?_, ih later⟩
        have known : e.1 ∈ (ParameterMap.insert key value rest).keys := List.mem_map_of_mem member
        rcases mem_keys_insert.1 known with new | old
        · exact new ▸ after
        · obtain ⟨e', inside, same⟩ := List.mem_map.1 old
          exact same ▸ first e' inside

theorem get?_of_before (before : ∀ entry ∈ map, key < entry.1) : map.get? key = none := by
  rw [← Option.not_isSome_iff_eq_none, isSome_get?_iff]
  intro member
  obtain ⟨entry, inside, rfl⟩ := List.mem_map.1 member
  exact lt_irrefl _ (before entry inside)

theorem not_lt_of_alike {k k' : String} {v v' : Value} {rest rest' : ParameterMap}
    (ascends : Ascends ((k', v') :: rest'))
    (alike : ∀ key, get? ((k, v) :: rest) key = get? ((k', v') :: rest') key) : ¬k < k' := by
  intro before
  have all : ∀ entry ∈ (k', v') :: rest', k < entry.1 := by
    intro entry member
    rcases List.mem_cons.1 member with rfl | inside
    · exact before
    · exact lt_trans before ((List.pairwise_cons.1 ascends).1 entry inside)
  have first := alike k
  rw [get?_of_before all, get?_cons, if_pos rfl] at first
  cases first

theorem Ascends.ext (ascends : map.Ascends) (ascends' : other.Ascends)
    (alike : ∀ key, map.get? key = other.get? key) : map = other := by
  induction map generalizing other with
  | nil =>
    cases other with
    | nil => rfl
    | cons entry rest =>
      have first := alike entry.1
      rw [get?_cons, if_pos rfl] at first
      cases first
  | cons entry rest ih =>
    cases other with
    | nil =>
      have first := alike entry.1
      rw [get?_cons, if_pos rfl] at first
      cases first
    | cons entry' rest' =>
      obtain ⟨k, v⟩ := entry
      obtain ⟨k', v'⟩ := entry'
      obtain rfl : k = k' := by
        refine le_antisymm (not_lt.1 (not_lt_of_alike ascends fun key => (alike key).symm))
          (not_lt.1 (not_lt_of_alike ascends' alike))
      have ⟨first, later⟩ := List.pairwise_cons.1 ascends
      have ⟨first', later'⟩ := List.pairwise_cons.1 ascends'
      have value := alike k
      rw [get?_cons, if_pos rfl, get?_cons, if_pos rfl, Option.some.injEq] at value
      have tails : ∀ key, get? rest key = get? rest' key := by
        intro key
        by_cases here : key = k
        · rw [here, get?_of_before first, get?_of_before first']
        · have both := alike key
          rwa [get?_cons, if_neg here, get?_cons, if_neg here] at both
      rw [value, ih later later' tails]

theorem get?_overlay (lower upper : ParameterMap) (key : String) :
    (lower.overlay upper).get? key = (upper.get? key).or (lower.get? key) := by
  induction upper with
  | nil => rfl
  | cons entry rest ih =>
    rw [overlay, List.foldr_cons, get?_insert, ← overlay, ih, get?_cons]
    split <;> rfl

theorem Ascends.overlay (ascends : lower.Ascends) (upper : ParameterMap) :
    (lower.overlay upper).Ascends := by
  induction upper with
  | nil => exact ascends
  | cons entry rest ih => exact ih.insert entry.1 entry.2

end ParameterMap

namespace ParameterSet

open ParameterMap (Ascends)

theorem toMap_push (s : ParameterSet) (p : Parameter) :
    (s.push p).toMap = ParameterMap.insert p.key p.value s.toMap := by
  rw [toMap, entries_push, List.foldl_append]
  rfl

theorem push_induction {motive : ParameterSet → Prop} (s : ParameterSet) (nil : motive {})
    (push : ∀ s p, motive s → motive (s.push p)) : motive s := by
  obtain ⟨entries⟩ := s
  induction entries using List.reverseRecOn with
  | nil => exact nil
  | append_singleton ps p ih => exact push ⟨ps⟩ p ih

theorem ascends_toMap (s : ParameterSet) : s.toMap.Ascends := by
  induction s using push_induction with
  | nil => exact List.Pairwise.nil
  | push s p ih =>
    rw [toMap_push]
    exact ih.insert p.key p.value

theorem get?_toMap (s : ParameterSet) (key : String) : s.toMap.get? key = s.get? key := by
  induction s using push_induction with
  | nil => rfl
  | push s p ih =>
    rw [toMap_push, ParameterMap.get?_insert, get?_push, ih]
    simp only [eq_comm]

theorem mem_keys_toMap (s : ParameterSet) (key : String) : key ∈ s.toMap.keys ↔ key ∈ s.keys := by
  rw [← ParameterMap.isSome_get?_iff, get?_toMap]
  simp [get?, keys]

theorem get?_append (s : ParameterSet) (ps : List Parameter) (key : String) :
    (s.append ps).get? key = ((⟨ps⟩ : ParameterSet).get? key).or (s.get? key) := by
  rw [get?, entries_append, List.reverse_append, List.find?_append, Option.map_or]
  rfl

theorem toMap_append (s : ParameterSet) (ps : List Parameter) :
    (s.append ps).toMap = s.toMap.overlay (⟨ps⟩ : ParameterSet).toMap := by
  refine (ascends_toMap _).ext ((ascends_toMap s).overlay _) fun key => ?_
  rw [ParameterMap.get?_overlay, get?_toMap, get?_toMap, get?_toMap, get?_append]

end ParameterSet

theorem Overrides.get?_mergeInto (o : Overrides) (report key : String) :
    (o.mergeInto report).get? key =
      ((ParameterSet.ofWholeReport report).append o.entries).get? key := by
  have mine : (⟨o.entries⟩ : ParameterSet).get? key =
      ((o.entries.filter (·.key = key)).getLast?).map (·.value) :=
    ParameterSet.get?_eq_getLast? ⟨o.entries⟩ key
  rw [ParameterSet.get?_append, mine, ParameterSet.get?_eq_getLast?]
  cases overridden : o.contains key with
  | true =>
    have present : ∃ p ∈ o.entries, p.key = key := by
      have known := (o.contains_iff_mem_keys key).1 overridden
      exact List.mem_map.1 known
    have nonempty : o.entries.filter (·.key = key) ≠ [] := by
      obtain ⟨p, member, same⟩ := present
      exact List.ne_nil_of_mem (List.mem_filter.2 ⟨member, decide_eq_true same⟩)
    rw [filter_mergeInto_of_contains overridden, List.getLast?_eq_some_getLast nonempty]
    rfl
  | false =>
    rw [filter_mergeInto_of_not_contains overridden, filter_entries_of_not_contains overridden,
      ← ParameterSet.get?_eq_getLast?]
    rfl

/-- What is skipped would have been overwritten. -/
theorem Overrides.toMap_mergeInto (o : Overrides) (report : String) :
    (o.mergeInto report).toMap =
      ((ParameterSet.ofWholeReport report).append o.entries).toMap := by
  refine (ParameterSet.ascends_toMap _).ext (ParameterSet.ascends_toMap _) fun key => ?_
  rw [ParameterSet.get?_toMap, ParameterSet.get?_toMap, o.get?_mergeInto]

/-- The last occurrence of a key decides for every reader, however the list was put together. A list
that is appended is laid over the map of what stood before, and so are overrides over a report. -/
theorem ParameterSet.toMap_lastWins (s : ParameterSet) :
    (∀ key, s.get? key = s.toMap.get? key) ∧
    s.toMap.keys.Pairwise (fun a b => a.toList.map Char.toNat < b.toList.map Char.toNat) ∧
    (∀ key, key ∈ s.toMap.keys ↔ key ∈ s.keys) ∧
    (∀ ps, (s.append ps).toMap = s.toMap.overlay (⟨ps⟩ : ParameterSet).toMap) ∧
    (∀ (lower upper : ParameterMap) (key : String),
      (lower.overlay upper).get? key = (upper.get? key).or (lower.get? key)) ∧
    ∀ (l : Leader) (report : String), (l.merge report).toMap =
      ((ofWholeReport report).append l.overrides.entries).toMap := by
  have ordered : s.toMap.keys.Pairwise
      fun a b => a.toList.map Char.toNat < b.toList.map Char.toNat := by
    refine List.pairwise_map.2 (s.ascends_toMap.imp fun {a b} before => ?_)
    exact List.map_lt (fun _ _ less => less) before
  exact ⟨fun key => (s.get?_toMap key).symm, ordered, s.mem_keys_toMap, s.toMap_append,
    ParameterMap.get?_overlay, fun l => l.overrides.toMap_mergeInto⟩

end LoginSession

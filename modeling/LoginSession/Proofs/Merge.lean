import LoginSession.Proofs.Overrides
import LoginSession.Session.Leader

namespace LoginSession

namespace Parameter

theorem ofLine?_skip (skip : String → Bool) (line : List Char) :
    ofLine? skip line = (ofLine? (fun _ => false) line).filter fun p => !skip p.key := by
  unfold ofLine?
  cases Text.cutAt? separator.toList line with
  | none => rfl
  | some halves =>
    obtain ⟨key, raw⟩ := halves
    dsimp only
    cases found : discovered? (String.ofList key) (String.ofList raw) with
    | none => simp
    | some p =>
      have hk := (kind_of_discovered? found).1
      cases hs : skip (String.ofList key) <;> simp [Option.filter, hk, hs]

theorem kindOf?_of_mem_protectedKeys {key : String} (h : key ∈ protectedKeys) :
    kindOf? key = none := by
  simp only [protectedKeys, List.mem_cons, List.not_mem_nil, or_false] at h
  rcases h with rfl | rfl <;> decide

end Parameter

namespace ParameterSet

def ofWholeReport (report : String) : ParameterSet := ofReport (fun _ => false) report

theorem entries_ofReport (skip : String → Bool) (report : String) :
    (ofReport skip report).entries =
      (ofWholeReport report).entries.filter fun p => !skip p.key := by
  simp only [ofReport, ofWholeReport]
  induction Text.lines report.toList with
  | nil => rfl
  | cons line lines ih =>
    simp only [List.filterMap_cons, Parameter.ofLine?_skip skip line]
    cases Parameter.ofLine? (fun _ => false) line with
    | none => exact ih
    | some p => cases hs : skip p.key <;> simp [Option.filter, hs, ih]

theorem isSome_kindOf?_of_mem_ofWholeReport {report : String} {p : Parameter}
    (h : p ∈ (ofWholeReport report).entries) : (Parameter.kindOf? p.key).isSome := by
  simp only [ofWholeReport, ofReport, List.mem_filterMap] at h
  obtain ⟨line, -, h⟩ := h
  simp only [Parameter.ofLine?] at h
  split at h
  · cases h
  · simp only [Bool.false_eq_true, if_false] at h
    obtain ⟨same, kind⟩ := Parameter.kind_of_discovered? h
    rw [same, kind]
    rfl

theorem get?_eq_getLast? (s : ParameterSet) (key : String) :
    s.get? key = ((s.entries.filter (·.key = key)).getLast?).map (·.value) := by
  rw [get?, List.getLast?_eq_head?_reverse, ← List.filter_reverse, List.head?_filter]

end ParameterSet

namespace Overrides

variable {o : Overrides}

theorem entries_mergeInto (o : Overrides) (report : String) :
    (o.mergeInto report).entries =
      (ParameterSet.ofWholeReport report).entries.filter (fun p => !o.contains p.key) ++
        o.entries := by
  rw [mergeInto, ParameterSet.entries_append, ParameterSet.entries_ofReport]

theorem filter_entries_of_not_contains {key : String} (h : o.contains key = false) :
    o.entries.filter (·.key = key) = [] := by
  rw [List.filter_eq_nil_iff]
  intro p hp same
  have member : o.contains key = true :=
    (o.contains_iff_mem_keys key).2 (List.mem_map.2 ⟨p, hp, of_decide_eq_true same⟩)
  rw [h] at member
  cases member

theorem filter_mergeInto_of_contains {key : String} (h : o.contains key = true) (report : String) :
    (o.mergeInto report).entries.filter (·.key = key) = o.entries.filter (·.key = key) := by
  rw [entries_mergeInto, List.filter_append, List.filter_filter]
  have none : (ParameterSet.ofWholeReport report).entries.filter
      (fun p => decide (p.key = key) && !o.contains p.key) = [] := by
    rw [List.filter_eq_nil_iff]
    intro p _ kept
    simp only [Bool.and_eq_true, decide_eq_true_eq, Bool.not_eq_true'] at kept
    rw [kept.1, h] at kept
    cases kept.2
  rw [none, List.nil_append]

theorem filter_mergeInto_of_not_contains {key : String} (h : o.contains key = false)
    (report : String) :
    (o.mergeInto report).entries.filter (·.key = key) =
      (ParameterSet.ofWholeReport report).entries.filter (·.key = key) := by
  rw [entries_mergeInto, List.filter_append, filter_entries_of_not_contains h, List.append_nil,
    List.filter_filter]
  apply List.filter_congr
  intro p _
  by_cases same : p.key = key
  · simp [same, h]
  · simp [same]

theorem WellFormed.get?_mergeInto (wf : o.WellFormed) (report key : String) :
    (o.mergeInto report).get? key =
      if o.contains key then o.get? key
      else (((ParameterSet.ofWholeReport report).entries.filter (·.key = key)).getLast?).map
        (·.value) := by
  rw [ParameterSet.get?_eq_getLast?]
  cases h : o.contains key with
  | false => simp [filter_mergeInto_of_not_contains h]
  | true =>
    obtain ⟨p, hp, rfl⟩ := List.mem_map.1 ((o.contains_iff_mem_keys key).1 h)
    have only := filter_key_of_nodup wf.nodup hp
    rw [filter_mergeInto_of_contains h, get?, ← List.head?_filter, only]
    rfl

theorem WellFormed.key_of_mem_mergeInto (wf : o.WellFormed) {report : String} {p : Parameter}
    (h : p ∈ (o.mergeInto report).entries) :
    ((Parameter.kindOf? p.key).isSome ∨ o.contains p.key = true) ∧ p.key ∉ protectedKeys := by
  rw [entries_mergeInto, List.mem_append, List.mem_filter] at h
  rcases h with ⟨found, -⟩ | overridden
  · have known := ParameterSet.isSome_kindOf?_of_mem_ofWholeReport found
    refine ⟨.inl known, fun isProtected => ?_⟩
    rw [Parameter.kindOf?_of_mem_protectedKeys isProtected] at known
    cases known
  · have member : p.key ∈ o.keys := List.mem_map_of_mem overridden
    exact ⟨.inr ((o.contains_iff_mem_keys _).2 member),
      fun isProtected => wf.unprotected _ isProtected member⟩

end Overrides

/-- What a leader reports of a collection, for every report of its helper and every list of
overrides: the report without the overridden keys, in its own order, and after it every override. -/
theorem Leader.merge_setOverrides (l : Leader) (ps : List Parameter) (report : String) :
    let o := Overrides.ofList ps
    let found := ParameterSet.ofWholeReport report
    let merged := (l.setOverrides ps).merge report
    merged.entries = found.entries.filter (fun p => !o.contains p.key) ++ o.entries ∧
    (∀ p ∈ o.entries, merged.entries.filter (·.key = p.key) = [p]) ∧
    (∀ key, o.contains key = false →
      merged.entries.filter (·.key = key) = found.entries.filter (·.key = key)) ∧
    (∀ key, merged.get? key =
      if o.contains key then o.get? key
      else ((found.entries.filter (·.key = key)).getLast?).map (·.value)) ∧
    (∀ p ∈ merged.entries, Parameter.kindOf? p.key = none → o.contains p.key = true) ∧
    ∀ p ∈ merged.entries, p.key ≠ "id" ∧ p.key ≠ "cookie" := by
  intro o found merged
  have wf : o.WellFormed := Overrides.wellFormed_ofList ps
  refine ⟨o.entries_mergeInto report, ?_, ?_, wf.get?_mergeInto report, ?_, ?_⟩
  · intro p hp
    have member : o.contains p.key = true :=
      (o.contains_iff_mem_keys _).2 (List.mem_map_of_mem hp)
    exact (Overrides.filter_mergeInto_of_contains member report).trans
      (Overrides.filter_key_of_nodup wf.nodup hp)
  · intro key free
    exact Overrides.filter_mergeInto_of_not_contains free report
  · intro p hp unknown
    rcases (wf.key_of_mem_mergeInto hp).1 with known | overridden
    · rw [unknown] at known
      cases known
    · exact overridden
  · intro p hp
    have free := (wf.key_of_mem_mergeInto hp).2
    simp only [protectedKeys, List.mem_cons, List.not_mem_nil, or_false, not_or] at free
    exact free

example :
    let l := ({} : Leader).setOverrides [⟨"seat", .text "0"⟩, ⟨"id", .text "forged"⟩,
      ⟨"color", .text "red"⟩, ⟨"seat", .text "1"⟩]
    l.overrides.entries = [⟨"seat", .text "1"⟩, ⟨"color", .text "red"⟩] ∧
    (l.merge "seat = 9\nunix-user = 7\nid = x\ncolor = blue\nunix-user = 8").entries =
      [⟨"unix-user", .int32 7⟩, ⟨"unix-user", .int32 8⟩, ⟨"seat", .text "1"⟩,
        ⟨"color", .text "red"⟩] := by decide

end LoginSession

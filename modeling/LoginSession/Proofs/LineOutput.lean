import LoginSession.Proofs.WireFormat

namespace LoginSession

theorem flatMap_eq_map_iff {α β : Type} {xs : List α} {f : α → List β} {g : α → β}
    (nonempty : ∀ x, f x ≠ []) : xs.flatMap f = xs.map g ↔ ∀ x ∈ xs, f x = [g x] := by
  have longer : ∀ ys : List α, ys.length ≤ (ys.flatMap f).length := by
    intro ys
    induction ys with
    | nil => exact Nat.zero_le _
    | cons y ys ih =>
      have := List.length_pos_iff.2 (nonempty y)
      rw [List.flatMap_cons, List.length_append, List.length_cons]
      omega
  constructor
  · intro same
    induction xs with
    | nil => simp
    | cons x xs ih =>
      obtain ⟨first, more, split⟩ := List.exists_cons_of_ne_nil (nonempty x)
      rw [List.flatMap_cons, split, List.map_cons, List.cons_append, List.cons.injEq] at same
      have count := congrArg List.length same.2
      rw [List.length_append, List.length_map] at count
      have single : more = [] := by
        have := longer xs
        exact List.length_eq_zero_iff.1 (by omega)
      rw [single, List.nil_append] at same
      rw [List.forall_mem_cons]
      exact ⟨by rw [split, single, same.1], ih same.2⟩
  · intro each
    rw [List.flatMap_congr each, List.map_eq_flatMap]

namespace Text

theorem mem_of_mem_trim {cs : List Char} {c : Char} (member : c ∈ trim cs) : c ∈ cs := by
  have inner := (List.dropWhile_sublist isBlank).mem (List.mem_reverse.1 member)
  exact (List.dropWhile_sublist isBlank).mem (List.mem_reverse.1 inner)

theorem not_mem_of_cutAt? {c : Char} {cs before after : List Char}
    (cut : cutAt? [c] cs = some (before, after)) : c ∉ before := by
  have first := cut
  rw [cutAt?_eq cut, cutAt?_append_iff (List.cons_ne_nil c [])] at first
  simpa [List.singleton_infix_iff] using first

end Text

namespace Parameter

variable {p : Parameter}

theorem readLine_render_iff : readLine p.render.toList = some (p.key, p.value.render) ↔
    ¬separator.toList <:+: p.key.toList ++ separator.toList.dropLast := by
  rw [← cutAt?_render_iff, readLine, Option.map_eq_some_iff]
  constructor
  · rintro ⟨⟨key, value⟩, cut, same⟩
    rw [Prod.mk.injEq] at same
    rw [cut, ← same.1, ← same.2, String.toList_ofList, String.toList_ofList]
  · intro cut
    exact ⟨_, cut, by simp⟩

theorem isOneLine_iff : p.IsOneLine ↔
    (Text.lines p.render.toList).map readLine = [some (p.key, p.value.render)] := by
  constructor
  · intro h
    rw [h.lines_render, List.map_singleton, readLine_render_iff.2 h.unseparated]
  · intro read
    have single := congrArg List.length read
    rw [List.length_map, List.length_singleton] at single
    have free : '\n' ∉ p.render.toList := Text.pieces_eq_singleton_iff.1 single
    rw [Text.lines, Text.pieces_of_not_mem free, List.map_singleton, List.singleton_inj] at read
    obtain ⟨key, value⟩ := newline_not_mem_render_iff.1 free
    exact ⟨key, value, readLine_render_iff.1 read⟩

theorem unseparated_of_not_mem {key : List Char} (free : '=' ∉ key) :
    ¬separator.toList <:+: key ++ separator.toList.dropLast := by
  have chars : separator.toList = [' ', '=', ' '] := by decide
  rintro ⟨before, after, same⟩
  rw [chars] at same
  have once := congrArg (List.count '=') same
  have last := congrArg List.getLast? same
  simp only [List.count_append, List.count_eq_zero.2 free] at once
  cases after with
  | nil => simp at last
  | cons c after =>
    have member : '=' ∈ c :: after := by
      refine List.mem_of_getLast? ?_
      simpa using last
    have := List.count_pos_iff.2 member
    simp at once
    omega

theorem ofAssignment?_eq_some {assignment : String} (read : ofAssignment? assignment = some p) :
    ∃ key raw, Text.cutAt? ['='] assignment.toList = some (key, raw) ∧
      p.key = String.ofList (Text.trim key) ∧
      p = (discovered? p.key (String.ofList (Text.trim raw))).getD
        ⟨p.key, .text (String.ofList (Text.trim raw))⟩ := by
  rw [ofAssignment?] at read
  split at read
  · cases read
  · rename_i key raw cut
    split at read
    · cases read
    · have value := Option.some.inj read
      have same : p.key = String.ofList (Text.trim key) := by
        rw [← value]
        cases found : discovered? (String.ofList (Text.trim key))
          (String.ofList (Text.trim raw)) with
        | none => rfl
        | some q => exact (kind_of_discovered? found).1
      exact ⟨key, raw, cut, same, by rw [same, value]⟩

theorem isOneLine_iff_of_ofAssignment? {assignment : String}
    (read : ofAssignment? assignment = some p) :
    p.IsOneLine ↔ '\n' ∉ p.render.toList := by
  refine ⟨fun h => newline_not_mem_render_iff.2 ⟨h.key, h.value⟩, fun free => ?_⟩
  obtain ⟨key, value⟩ := newline_not_mem_render_iff.1 free
  obtain ⟨before, raw, cut, same, -⟩ := ofAssignment?_eq_some read
  refine ⟨key, value, unseparated_of_not_mem fun member => ?_⟩
  rw [same, String.toList_ofList] at member
  exact Text.not_mem_of_cutAt? cut (Text.mem_of_mem_trim member)

end Parameter

namespace ParameterSet

/-- What a reader makes of a text of lines: each is cut where its key seems to end. Nothing stands
after the last newline. -/
def readLines (text : String) : List (Option (String × String)) :=
  (Text.lines text.toList).dropLast.map Parameter.readLine

def assignments (ps : List Parameter) : List (Option (String × String)) :=
  ps.map fun p => some (p.key, p.value.render)

theorem readLines_renderLines (s : ParameterSet) :
    readLines s.renderLines =
      s.entries.flatMap fun p => (Text.lines p.render.toList).map Parameter.readLine := by
  rw [readLines, lines_renderLines, List.dropLast_concat, List.map_flatMap]

theorem readLines_renderLines_iff (s : ParameterSet) :
    readLines s.renderLines = assignments s.entries ↔ ∀ p ∈ s.entries, p.IsOneLine := by
  rw [readLines_renderLines, assignments, flatMap_eq_map_iff]
  · exact forall₂_congr fun p _ => Parameter.isOneLine_iff.symm
  · exact fun p => by simp [Text.lines, Text.pieces_ne_nil]

theorem readLines_append (ps qs : List Parameter) :
    readLines (⟨ps ++ qs⟩ : ParameterSet).renderLines =
      readLines (⟨ps⟩ : ParameterSet).renderLines ++ readLines (⟨qs⟩ : ParameterSet).renderLines := by
  simp only [readLines_renderLines, List.flatMap_append]

theorem not_mem_assignments {ps : List Parameter} {key value : String}
    (absent : ∀ p ∈ ps, p.key ≠ key) : some (key, value) ∉ assignments ps := by
  intro member
  obtain ⟨p, here, same⟩ := List.mem_map.1 member
  exact absent p here (Prod.mk.inj (Option.some.inj same)).1

end ParameterSet

namespace Overrides

theorem mem_of_mem_assign {p q : Parameter} {ps : List Parameter} (member : q ∈ assign p ps) :
    q = p ∨ q ∈ ps := by
  induction ps with
  | nil => exact .inl (List.mem_singleton.1 member)
  | cons r ps ih =>
    rw [assign] at member
    split at member
    · rename_i same
      rcases List.mem_cons.1 member with rfl | old
      · exact .inl (by rw [same])
      · exact .inr (List.mem_cons_of_mem r old)
    · rcases List.mem_cons.1 member with rfl | later
      · exact .inr List.mem_cons_self
      · exact (ih later).imp_right (List.mem_cons_of_mem r)

theorem mem_of_mem_ofList {p : Parameter} {ps : List Parameter}
    (member : p ∈ (ofList ps).entries) : p ∈ ps := by
  suffices ∀ o : Overrides, p ∈ (ps.foldl insert o).entries → p ∈ ps ∨ p ∈ o.entries from
    (this {} member).resolve_right List.not_mem_nil
  clear member
  induction ps with
  | nil => exact fun _ old => .inr old
  | cons q ps ih =>
    intro o member
    rcases ih (o.insert q) member with later | old
    · exact .inl (List.mem_cons_of_mem q later)
    · rw [insert] at old
      split at old
      · exact .inr old
      · rcases mem_of_mem_assign old with rfl | kept
        · exact .inl List.mem_cons_self
        · exact .inr kept

end Overrides

open ParameterSet in
/-- The lines that a collection prints are read as its parameters if and only if no override breaks
its line. Whoever reads a protected key there has read it in the text of an override. -/
theorem Leader.lines_faithful_iff (l : Leader) (ps : List Parameter) (report : String) :
    let overrides := (Overrides.ofList ps).entries
    let merged := (l.setOverrides ps).merge report
    let text := (Outcome.collected merged).text false
    (readLines text = assignments merged.entries ↔ ∀ p ∈ overrides, p.IsOneLine) ∧
    ((∀ p ∈ ps, ∃ assignment, Parameter.ofAssignment? assignment = some p) →
      (readLines text = assignments merged.entries ↔ ∀ p ∈ overrides, '\n' ∉ p.render.toList)) ∧
    (∀ key ∈ protectedKeys, ∀ value, some (key, value) ∈ readLines text ↔
      some (key, value) ∈ readLines (⟨overrides⟩ : ParameterSet).renderLines) ∧
    ((∀ p ∈ overrides, p.IsOneLine) →
      ∀ key ∈ protectedKeys, ∀ value, some (key, value) ∉ readLines text) := by
  intro overrides merged text
  let kept := (ofWholeReport report).entries.filter fun p =>
    !(Overrides.ofList ps).contains p.key
  have parts : merged = ⟨kept ++ overrides⟩ :=
    congrArg ParameterSet.mk ((Overrides.ofList ps).entries_mergeInto report)
  have reportable : ∀ p ∈ kept, p.IsReportable := fun p member =>
    isCanonical_ofReport _ report p (List.mem_of_mem_filter member)
  have keptFaithful : readLines (⟨kept⟩ : ParameterSet).renderLines = assignments kept :=
    (readLines_renderLines_iff ⟨kept⟩).2 fun p member => (reportable p member).isOneLine
  have faithful : readLines text = assignments merged.entries ↔ ∀ p ∈ overrides, p.IsOneLine := by
    refine (readLines_renderLines_iff merged).trans ?_
    rw [parts, List.forall_mem_append]
    exact and_iff_right fun p member => (reportable p member).isOneLine
  have forged : ∀ key ∈ protectedKeys, ∀ value, some (key, value) ∈ readLines text ↔
      some (key, value) ∈ readLines (⟨overrides⟩ : ParameterSet).renderLines := by
    intro key isProtected value
    have unreported : some (key, value) ∉ assignments kept := by
      refine not_mem_assignments fun p member same => ?_
      have known := Parameter.kindOf?_eq_some_iff.2 (reportable p member).known
      rw [same, Parameter.kindOf?_of_mem_protectedKeys isProtected] at known
      cases known
    have split : readLines text = assignments kept ++
        readLines (⟨overrides⟩ : ParameterSet).renderLines := by
      rw [← keptFaithful, ← readLines_append, ← parts]
      rfl
    rw [split, List.mem_append]
    exact or_iff_right unreported
  refine ⟨faithful, fun assigned => faithful.trans ?_, forged, fun oneLine key isProtected value => ?_⟩
  · refine forall₂_congr fun p member => ?_
    obtain ⟨assignment, read⟩ := assigned p (Overrides.mem_of_mem_ofList member)
    exact Parameter.isOneLine_iff_of_ofAssignment? read
  · rw [forged key isProtected value, (readLines_renderLines_iff ⟨overrides⟩).2 oneLine]
    refine not_mem_assignments fun p member same => ?_
    exact (Overrides.wellFormed_ofList ps).unprotected key isProtected
      (List.mem_map.2 ⟨p, member, same⟩)

open ParameterSet in
theorem Leader.lines_faithful_iff_plain :
    let ps : List Parameter := [⟨"id", .text "a\nid = b"⟩, ⟨"a =b", .text " = c\r"⟩]
    let text := (Outcome.collected ((Leader.setOverrides {} ps).merge "is-local = true\n")).text false
    (∀ p ∈ (Overrides.ofList ps).entries, p.IsOneLine) ∧
      readLines text = [some ("is-local", "true"), some ("a =b", " = c\r")] ∧
      ∀ value, some ("id", value) ∉ readLines text := by
  intro ps text
  have oneLine : ∀ p ∈ (Overrides.ofList ps).entries, p.IsOneLine := by
    intro p member
    have only : p = ⟨"a =b", .text " = c\r"⟩ := List.mem_singleton.1 member
    rw [only]
    exact ⟨by decide, by decide, by decide⟩
  obtain ⟨faithful, -, -, unforged⟩ := Leader.lines_faithful_iff {} ps "is-local = true\n"
  exact ⟨oneLine, (faithful.2 oneLine).trans (by decide), unforged oneLine "id" (by decide)⟩

open ParameterSet in
/-- A newline in the value of an override prints the assignment to a protected key. -/
theorem Leader.not_lines_faithful :
    let forging : Parameter := ⟨"seat", .text "x\nid = forged"⟩
    let merged := (Leader.setOverrides {} [forging]).merge ""
    let text := (Outcome.collected merged).text false
    Parameter.ofAssignment? "seat=x\nid = forged" = some forging ∧
      text = "seat = x\nid = forged\n" ∧ merged.entries = [forging] ∧
      readLines text ≠ assignments merged.entries ∧ some ("id", "forged") ∈ readLines text := by
  decide

end LoginSession

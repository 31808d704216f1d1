import LoginSession.Proofs.Cutting
import LoginSession.Proofs.Merge
import LoginSession.Proofs.Numerals
import LoginSession.Session.Outcome

namespace LoginSession

namespace Value

theorem newline_not_mem_render {v : Value} (text : ∀ s, v = .text s → '\n' ∉ s.toList) :
    '\n' ∉ v.render.toList := by
  cases v with
  | text s => exact text s rfl
  | boolean b => cases b <;> decide
  | int32 n =>
    have digits : '\n' ∉ Nat.toDigits 10 n.toInt.natAbs := fun member =>
      absurd (Text.isDigit_of_mem_toDigits member) (by decide)
    rw [render, Text.toList_toString]
    split
    · simp [digits]
    · exact digits

theorem read_render (v : Value) : v.kind.read v.render = v := by
  cases v with
  | text s => rfl
  | boolean b => cases b <;> decide
  | int32 n =>
    have back := @Text.readInt32_toString [] n (by simp)
    rw [List.append_nil] at back
    rw [kind, Kind.read, render, back]

end Value

namespace Parameter

structure IsOneLine (p : Parameter) : Prop where
  key : '\n' ∉ p.key.toList
  value : '\n' ∉ p.value.render.toList
  unseparated : ¬separator.toList <:+: p.key.toList ++ separator.toList.dropLast

/-- The key is one that a helper may report, with a value of its kind and on one line. -/
structure IsReportable (p : Parameter) : Prop where
  known : (p.key, p.value.kind) ∈ discoveredKeys
  oneLine : ∀ s, p.value = .text s → '\n' ∉ s.toList

def readLine (line : List Char) : Option (String × String) :=
  (Text.cutAt? separator.toList line).map fun (key, value) =>
    (String.ofList key, String.ofList value)

variable {p : Parameter}

theorem separator_ne_nil : separator.toList ≠ [] := by decide

theorem toList_render (p : Parameter) :
    p.render.toList = p.key.toList ++ separator.toList ++ p.value.render.toList := by
  simp only [render, String.toList_append]

theorem newline_not_mem_render_iff :
    '\n' ∉ p.render.toList ↔ '\n' ∉ p.key.toList ∧ '\n' ∉ p.value.render.toList := by
  have free : '\n' ∉ separator.toList := by decide
  rw [toList_render, List.mem_append, List.mem_append, not_or, not_or]
  tauto

theorem cutAt?_render_iff :
    Text.cutAt? separator.toList p.render.toList =
        some (p.key.toList, p.value.render.toList) ↔
      ¬separator.toList <:+: p.key.toList ++ separator.toList.dropLast := by
  rw [toList_render]
  exact Text.cutAt?_append_iff separator_ne_nil

theorem IsOneLine.lines_render (h : p.IsOneLine) :
    Text.lines p.render.toList = [p.render.toList] :=
  Text.pieces_of_not_mem (newline_not_mem_render_iff.2 ⟨h.key, h.value⟩)

theorem kindOf?_eq_some_iff {key : String} {kind : Kind} :
    kindOf? key = some kind ↔ (key, kind) ∈ discoveredKeys := by
  constructor
  · intro found
    obtain ⟨before, after, whole, -⟩ := List.lookup_eq_some_iff.1 found
    simp [whole]
  · intro member
    simp only [discoveredKeys, List.mem_cons, Prod.mk.injEq, List.not_mem_nil, or_false] at member
    rcases member with ⟨rfl, rfl⟩ | ⟨rfl, rfl⟩ | ⟨rfl, rfl⟩ | ⟨rfl, rfl⟩ | ⟨rfl, rfl⟩ | ⟨rfl, rfl⟩ |
      ⟨rfl, rfl⟩ | ⟨rfl, rfl⟩ <;> decide

theorem IsReportable.isOneLine (h : p.IsReportable) : p.IsOneLine := by
  have keys : ∀ entry ∈ discoveredKeys, '\n' ∉ entry.1.toList ∧
      ¬separator.toList <:+: entry.1.toList ++ separator.toList.dropLast := by decide
  obtain ⟨key, unseparated⟩ := keys _ h.known
  exact ⟨key, Value.newline_not_mem_render h.oneLine, unseparated⟩

theorem IsReportable.discovered?_eq (h : p.IsReportable) :
    discovered? p.key p.value.render = some p := by
  rw [discovered?, kindOf?_eq_some_iff.2 h.known, Option.map_some, Value.read_render]

theorem IsReportable.ofLine?_render (h : p.IsReportable) :
    ofLine? (fun _ => false) p.render.toList = some p := by
  rw [ofLine?, cutAt?_render_iff.2 h.isOneLine.unseparated]
  simp only [Bool.false_eq_true, if_false, String.ofList_toList]
  exact h.discovered?_eq

theorem text_of_discovered? {key raw s : String} (found : discovered? key raw = some p)
    (text : p.value = .text s) : raw = s := by
  obtain ⟨kind, -, rfl⟩ := Option.map_eq_some_iff.1 found
  cases kind with
  | text => exact Value.text.inj text
  | boolean | int32 => cases text

theorem isReportable_of_ofLine? {skip : String → Bool} {line : List Char} (oneLine : '\n' ∉ line)
    (read : ofLine? skip line = some p) : p.IsReportable := by
  rw [ofLine?] at read
  split at read
  · cases read
  · rename_i key raw cut
    dsimp only at read
    split at read
    · cases read
    · obtain ⟨same, kind⟩ := kind_of_discovered? read
      refine ⟨kindOf?_eq_some_iff.1 (same ▸ kind), fun s text => ?_⟩
      rw [← text_of_discovered? read text, String.toList_ofList]
      rw [Text.cutAt?_eq cut, List.mem_append, not_or] at oneLine
      exact oneLine.2

end Parameter

namespace ParameterSet

def IsCanonical (s : ParameterSet) : Prop := ∀ p ∈ s.entries, p.IsReportable

theorem toList_renderLines (s : ParameterSet) :
    s.renderLines.toList = Text.endLines (s.entries.map fun p => p.render.toList) := by
  simp [renderLines, Text.endLines, List.flatMap_map]

theorem lines_renderLines (s : ParameterSet) :
    Text.lines s.renderLines.toList =
      (s.entries.flatMap fun p => Text.lines p.render.toList) ++ [[]] := by
  rw [toList_renderLines, Text.lines_endLines, List.flatMap_map]

theorem isCanonical_ofReport (skip : String → Bool) (report : String) :
    (ofReport skip report).IsCanonical := by
  intro p member
  obtain ⟨line, here, read⟩ := List.mem_filterMap.1 member
  exact Parameter.isReportable_of_ofLine? (Text.not_mem_of_mem_pieces here) read

theorem IsCanonical.ofWholeReport_renderLines {s : ParameterSet} (canonical : s.IsCanonical) :
    ofWholeReport s.renderLines = s := by
  have each : ∀ p ∈ s.entries,
      (Text.lines p.render.toList).filterMap (Parameter.ofLine? fun _ => false) = [p] := by
    intro p member
    have reportable := canonical p member
    rw [reportable.isOneLine.lines_render]
    simp [reportable.ofLine?_render]
  have last : Parameter.ofLine? (fun _ => false) [] = none := rfl
  have all : (s.entries.flatMap fun p =>
      (Text.lines p.render.toList).filterMap (Parameter.ofLine? fun _ => false)) = s.entries := by
    rw [List.flatMap_congr each]
    simp
  rw [ofWholeReport, ofReport, lines_renderLines, List.filterMap_append, List.filterMap_flatMap,
    all]
  simp [last]

/-- Lines that were read and written again are read as before: reading gives a normal form, and
writing is faithful to every list of that form. -/
theorem report_roundTrip :
    (∀ skip report, (ofReport skip report).IsCanonical) ∧
    (∀ s : ParameterSet, s.IsCanonical →
      ofWholeReport ((Outcome.collected s).text false) = s) ∧
    ∀ skip report, ofWholeReport ((Outcome.collected (ofReport skip report)).text false) =
      ofReport skip report := by
  have back : ∀ s : ParameterSet, s.IsCanonical →
      ofWholeReport ((Outcome.collected s).text false) = s :=
    fun s canonical => canonical.ofWholeReport_renderLines
  exact ⟨isCanonical_ofReport, back, fun skip report => back _ (isCanonical_ofReport skip report)⟩

/-- Separators, a carriage return, blanks at both ends, a key twice and the ends of the range. -/
def intricate : ParameterSet :=
  ⟨[⟨"session-type", .text " = a = \r"⟩, ⟨"unix-user", .int32 (-2147483648)⟩,
    ⟨"session-type", .text ""⟩, ⟨"is-local", .boolean false⟩, ⟨"unix-user", .int32 2147483647⟩]⟩

theorem report_roundTrip_intricate : intricate.IsCanonical ∧
    ofWholeReport ((Outcome.collected intricate).text false) = intricate := by
  have canonical : intricate.IsCanonical := by
    intro p member
    simp only [intricate, List.mem_cons, List.not_mem_nil, or_false] at member
    rcases member with rfl | rfl | rfl | rfl | rfl <;> exact ⟨by decide, by simp⟩
  exact ⟨canonical, report_roundTrip.2.1 intricate canonical⟩

end ParameterSet

end LoginSession

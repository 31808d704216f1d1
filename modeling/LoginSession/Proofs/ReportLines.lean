import LoginSession.Proofs.Cutting
import LoginSession.Proofs.Merge

namespace LoginSession

namespace Text

theorem pieces_joinPieces {c : Char} {texts : List (List Char)} (nonempty : texts ≠ []) :
    pieces c (joinPieces c texts) = texts.flatMap (pieces c) := by
  induction texts with
  | nil => exact absurd rfl nonempty
  | cons text texts ih =>
    cases texts with
    | nil => simp [joinPieces]
    | cons next more =>
      rw [List.flatMap_cons, ← ih (List.cons_ne_nil next more), ← pieces_append]
      rfl

theorem toList_intercalate (texts : List String) :
    ("\n".intercalate texts).toList = joinPieces '\n' (texts.map String.toList) := by
  induction texts with
  | nil => rfl
  | cons text texts ih =>
    cases texts with
    | nil => simp [joinPieces]
    | cons next more =>
      rw [String.intercalate_cons_cons, String.toList_append, String.toList_append, ih]
      simp [joinPieces]

end Text

namespace Parameter

theorem ofLine?_of_not_infix (skip : String → Bool) {line : List Char}
    (unseparated : ¬separator.toList <:+: line) : ofLine? skip line = none := by
  rw [ofLine?, Text.cutAt?_eq_none_iff.2 unseparated]

theorem ofLine?_append (skip : String → Bool) {key raw : String}
    (first : ¬separator.toList <:+: key.toList ++ separator.toList.dropLast) :
    ofLine? skip (key ++ separator ++ raw).toList =
      if skip key then none else (kindOf? key).map fun kind => ⟨key, kind.read raw⟩ := by
  have cut : Text.cutAt? separator.toList (key.toList ++ separator.toList ++ raw.toList) =
      some (key.toList, raw.toList) := (Text.cutAt?_append_iff (by decide)).2 first
  rw [ofLine?, String.toList_append, String.toList_append, cut]
  simp only [String.ofList_toList, discovered?]

end Parameter

namespace ParameterSet

theorem ofReport_append_newline (skip : String → Bool) (a b : String) :
    ofReport skip (a ++ "\n" ++ b) = (ofReport skip a).append (ofReport skip b).entries := by
  have split : (a ++ "\n" ++ b).toList = a.toList ++ '\n' :: b.toList := by simp
  rw [ofReport, split, Text.lines, Text.pieces_append, List.filterMap_append]
  rfl

theorem entries_ofReport_intercalate (skip : String → Bool) (texts : List String) :
    (ofReport skip ("\n".intercalate texts)).entries =
      texts.flatMap fun text => (ofReport skip text).entries := by
  cases texts with
  | nil => rfl
  | cons text texts =>
    rw [ofReport, Text.toList_intercalate, Text.lines, Text.pieces_joinPieces (by simp),
      List.filterMap_flatMap, List.flatMap_map]
    rfl

theorem entries_ofReport_of_not_mem (skip : String → Bool) {line : String}
    (oneLine : '\n' ∉ line.toList) :
    (ofReport skip line).entries = (Parameter.ofLine? skip line.toList).toList := by
  rw [ofReport, Text.lines, Text.pieces_of_not_mem oneLine, List.filterMap_cons,
    List.filterMap_nil]
  cases Parameter.ofLine? skip line.toList <;> rfl

/-- Reports are read one after another as they are read together, and skipping keys leaves out their
parameters and no others. A line that is put between others, or in the place of another, adds what
it says itself: nothing without a separator or with an unknown key, one parameter with a known key,
whatever its value looks like. -/
theorem ofReport_byLine (skip : String → Bool) :
    let read := fun lines => (ofReport skip ("\n".intercalate lines)).entries
    (∀ a b, ofReport skip (a ++ "\n" ++ b) =
      (ofReport skip a).append (ofReport skip b).entries) ∧
    (∀ report, (ofReport skip report).entries =
      (ofReport (fun _ => false) report).entries.filter fun p => !skip p.key) ∧
    (∀ report, "\n".intercalate ((Text.lines report.toList).map String.ofList) = report) ∧
    (∀ before after, read (before ++ after) = read before ++ read after) ∧
    ∀ (before after : List String) (line : String), '\n' ∉ line.toList →
      read (before ++ line :: after) =
        read before ++ (Parameter.ofLine? skip line.toList).toList ++ read after ∧
      (¬Parameter.separator.toList <:+: line.toList →
        Parameter.ofLine? skip line.toList = none) ∧
      ∀ key raw : String, line = key ++ Parameter.separator ++ raw →
        ¬Parameter.separator.toList <:+: key.toList ++ Parameter.separator.toList.dropLast →
        Parameter.ofLine? skip line.toList =
          if skip key then none
          else (Parameter.kindOf? key).map fun kind => ⟨key, kind.read raw⟩ := by
  intro read
  have each (texts : List String) : read texts =
      texts.flatMap fun text => (ofReport skip text).entries :=
    entries_ofReport_intercalate skip texts
  refine ⟨ofReport_append_newline skip, entries_ofReport skip, fun report => ?_,
    fun before after => ?_, fun before after line oneLine =>
      ⟨?_, Parameter.ofLine?_of_not_infix skip, ?_⟩⟩
  · rw [← String.toList_inj, Text.toList_intercalate, List.map_map]
    simp [Function.comp_def, Text.lines, Text.joinPieces_pieces]
  · rw [each, each, each, List.flatMap_append]
  · rw [each, each, each, List.flatMap_append, List.flatMap_cons,
      entries_ofReport_of_not_mem skip oneLine, List.append_assoc]
  · rintro key raw rfl first
    exact Parameter.ofLine?_append skip first

/-- A number that is none stays a parameter of its own, between those of the lines around it. -/
theorem ofReport_byLine_garbled :
    '\n' ∉ "unix-user = many".toList ∧
    (ofReport (· = "is-local") ("\n".intercalate
        (["session-type = x11"] ++ "unix-user = many" :: ["is-local = true", ""]))).entries =
      [⟨"session-type", .text "x11"⟩, ⟨"unix-user", .int32 0⟩] := by
  obtain ⟨-, -, -, -, line⟩ := ofReport_byLine (· = "is-local")
  obtain ⟨whole, -, one⟩ :=
    line ["session-type = x11"] ["is-local = true", ""] "unix-user = many" (by decide)
  refine ⟨by decide, whole.trans ?_⟩
  rw [one "unix-user" "many" (by decide) (by decide)]
  decide

end ParameterSet

end LoginSession

import LoginSession.Proofs.Splitting

namespace LoginSession.CommandLine

namespace SplitError

def shift (distance : Nat) : SplitError → SplitError
  | .unterminatedSingleQuote p => .unterminatedSingleQuote (p + distance)
  | .unterminatedDoubleQuote p => .unterminatedDoubleQuote (p + distance)
  | e => e

end SplitError

namespace Line

variable {items more : List Item} {wordOpen : Bool} {cs front rest : List Char}
  {values values' : List (List Char)}

theorem text_append (items more : List Item) : text (items ++ more) = text items ++ text more :=
  List.flatMap_append

theorem words_append (items more : List Item) : words (items ++ more) = words items ++ words more :=
  List.filterMap_append

theorem follows_append (follows : Follows wordOpen items)
    (uncommented : ¬EndsInComment items ∨ more.head? = some (.blank '\n'))
    (next : ∀ wordOpen, Follows wordOpen more) : Follows wordOpen (items ++ more) := by
  induction items generalizing wordOpen with
  | nil => exact next wordOpen
  | cons item items ih =>
    have later : ¬EndsInComment items ∨ more.head? = some (.blank '\n') :=
      uncommented.imp_left (mt EndsInComment.cons)
    cases item with
    | blank c => exact ⟨follows.1, ih follows.2 later⟩
    | continuation => exact ih follows later
    | word w => exact ⟨follows.1, follows.2.1, ih follows.2.2 later⟩
    | comment t =>
      obtain ⟨closed, oneLine, rfl | newline, follows⟩ := follows
      · have ended := uncommented.resolve_left fun noComment => noComment ⟨t, rfl⟩
        exact ⟨closed, oneLine, .inr ended, next false⟩
      · obtain ⟨rest, rfl⟩ := List.head?_eq_some_iff.1 newline
        exact ⟨closed, oneLine, .inr rfl, ih follows later⟩

theorem endsInComment_append_blank {c : Char} :
    EndsInComment (items ++ .blank c :: more) ↔ EndsInComment more := by
  have last : EndsInComment (items ++ .blank c :: more) ↔ EndsInComment (.blank c :: more) := by
    simp only [EndsInComment, List.getLast?_append_cons]
  rw [last, endsInComment_cons]
  simp

/-- What may stand between two lines: a blank, and a newline where a comment has to be ended. -/
def Separates (cs : List Char) (c : Char) : Prop :=
  c ∈ [' ', '\t', '\n'] ∧ (IsCommented cs → c = '\n')

theorem exists_joined {c : Char} (derives : Derives cs values) (separates : Separates cs c) :
    ∃ items, text items = cs ∧ words items = values ∧
      ∀ more, IsProper more → IsProper (items ++ .blank c :: more) := by
  obtain ⟨items, proper, rfl, rfl⟩ := derives
  refine ⟨items, rfl, rfl, fun more follows => ?_⟩
  refine follows_append proper ?_ fun _ => ⟨separates.1, follows⟩
  by_cases commented : EndsInComment items
  · obtain rfl := separates.2 ⟨items, proper, commented, rfl⟩
    exact .inr rfl
  · exact .inl commented

theorem Derives.join {c : Char} {ds : List Char} (derives : Derives cs values)
    (separates : Separates cs c) (next : Derives ds values') :
    Derives (cs ++ c :: ds) (values ++ values') := by
  obtain ⟨items, rfl, rfl, joins⟩ := exists_joined derives separates
  obtain ⟨more, proper, rfl, rfl⟩ := next
  exact ⟨items ++ .blank c :: more, joins more proper, text_append .., words_append ..⟩

theorem Leads.join {c : Char} (derives : Derives cs values) (separates : Separates cs c)
    (leads : Leads front) : Leads (cs ++ c :: front) := by
  obtain ⟨items, rfl, -, joins⟩ := exists_joined derives separates
  obtain ⟨more, proper, noComment, rfl⟩ := leads
  exact ⟨items ++ .blank c :: more, joins more proper, mt endsInComment_append_blank.1 noComment,
    text_append ..⟩

theorem Unfinished.shift {error : Nat → SplitError} (unfinished : Unfinished rest error)
    (position distance : Nat) : (error position).shift distance = error (position + distance) := by
  cases unfinished <;> rfl

end Line

theorem derives_of_complete {command : String} {words : List String}
    (complete : split command = .ok words ∨ split command = .error .empty ∧ words = []) :
    Line.Derives command.toList (words.map String.toList) := by
  rcases complete with ok | ⟨empty, rfl⟩
  · exact (derives_of_ok ok).2
  · exact derives_of_empty empty

section

variable {first second : String} {c : Char} {values values' : List (List Char)}

theorem toList_joined (first second : String) (c : Char) :
    (first ++ String.singleton c ++ second).toList = first.toList ++ c :: second.toList := by
  simp

theorem split_joined_of_derives (derives : Line.Derives first.toList values)
    (separates : Line.Separates first.toList c) (next : Line.Derives second.toList values') :
    split (first ++ String.singleton c ++ second) =
      if values ++ values' = [] then .error .empty
      else .ok ((values ++ values').map String.ofList) := by
  have whole := derives.join separates next
  rw [← toList_joined] at whole
  exact split_of_derives whole

theorem split_joined_of_unfinished {front rest : List Char} {error : Nat → SplitError}
    (derives : Line.Derives first.toList values) (separates : Line.Separates first.toList c)
    (leads : Line.Leads front) (unfinished : Line.Unfinished rest error)
    (same : second.toList = front ++ rest) :
    split (first ++ String.singleton c ++ second) =
      .error ((error (String.ofList front).utf8ByteSize).shift (first.utf8ByteSize + 1)) := by
  have oneByte : c.utf8Size = 1 := by
    have blank := separates.1
    simp only [List.mem_cons, List.not_mem_nil, or_false] at blank
    rcases blank with rfl | rfl | rfl <;> rfl
  have whole := leads.join derives separates
  rw [split_of_unfinished whole unfinished (by simp [same]), unfinished.shift]
  congr 2
  simp [oneByte]
  omega

end

/-- What has been split stays split: behind a complete command and a separator a second one gives
its words, or no words, or its error, with the position of a quote counted from the start of the
first. -/
theorem split_joined (first second : String) (c : Char) (words : List String)
    (complete : split first = .ok words ∨ split first = .error .empty ∧ words = [])
    (separates : c = '\n' ∨ (c = ' ' ∨ c = '\t') ∧ ¬Line.IsCommented first.toList) :
    (∀ more, split second = .ok more →
      split (first ++ String.singleton c ++ second) = .ok (words ++ more)) ∧
    (split second = .error .empty → split (first ++ String.singleton c ++ second) =
      if words = [] then .error .empty else .ok words) ∧
    ∀ e, e ≠ .empty → split second = .error e →
      split (first ++ String.singleton c ++ second) =
        .error (e.shift (first.utf8ByteSize + 1)) := by
  have derives := derives_of_complete complete
  have separated : Line.Separates first.toList c := by
    rcases separates with rfl | ⟨rfl | rfl, noComment⟩ <;> simp [Line.Separates, *]
  refine ⟨fun more ok => ?_, fun empty => ?_, fun e notEmpty failed => ?_⟩
  · obtain ⟨nonempty, next⟩ := derives_of_ok ok
    rw [split_joined_of_derives derives separated next, if_neg (by simp [nonempty])]
    simp [Function.comp_def]
  · rw [split_joined_of_derives derives separated (derives_of_empty empty)]
    simp [Function.comp_def]
  · obtain ⟨front, rest, error, leads, unfinished, same, rfl⟩ := unfinished_of_error notEmpty failed
    exact split_joined_of_unfinished derives separated leads unfinished same

/-- The second command is quoted from its start, behind a comment that holds a quote itself and a
word of more bytes than characters. -/
theorem split_joined_quoted :
    (split "é #'" = .ok ["é"] ∨ split "é #'" = .error .empty ∧ ["é"] = []) ∧
    ('\n' = '\n' ∨ ('\n' = ' ' ∨ '\n' = '\t') ∧ ¬Line.IsCommented "é #'".toList) ∧
    split ("é #'" ++ String.singleton '\n' ++ "'ü") = .error (.unterminatedSingleQuote 6) :=
  ⟨.inl rfl, .inl rfl, (split_joined "é #'" "'ü" '\n' ["é"] (.inl rfl) (.inl rfl)).2.2
    (.unterminatedSingleQuote 0) (by simp) rfl⟩

end LoginSession.CommandLine

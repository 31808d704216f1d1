import LoginSession.CommandLine.Quote
import LoginSession.Proofs.Splitting

namespace LoginSession.CommandLine

/-- A word that is written as one text and denotes another. -/
def Word.Spells (w : Word) (written denoted : List Char) : Prop :=
  w.IsProper ∧ w.text = written ∧ w.value = denoted

theorem Segment.IsProper.anywhere {s : Segment} (h : s.IsProper false) (wordOpen : Bool) :
    s.IsProper wordOpen := by
  cases s with
  | plain c => exact ⟨h.1, fun hash => absurd (h.2 hash) (by decide)⟩
  | escape c | single t | double ps => exact h

theorem isProper_plain {c : Char} (plain : isPlain c = true) (wordOpen : Bool) :
    (Segment.plain c).IsProper wordOpen := by
  have quoting : ¬(c = '#' ∨ c = '\\' ∨ c = '\'' ∨ c = '"') := by
    intro h
    rw [isPlain_not_quoting h] at plain
    cases plain
  have separating : isSeparator c ≠ true := by
    intro h
    rw [isPlain_not_separator h] at plain
    cases plain
  rw [Ne, isSeparator_iff] at separating
  simp_all [Segment.IsProper]

theorem exists_spells_cons {s : Segment} {cs : List Char} (proper : s.IsProper false)
    (plain : cs.all isPlain = true) : ∃ w : Word, w.Spells (s.text ++ cs) (s.value ++ cs) := by
  refine ⟨⟨s, cs.map fun c => (0, .plain c)⟩, ⟨proper, ?_⟩, ?_, ?_⟩
  · intro s member
    obtain ⟨c, hc, rfl⟩ := List.mem_map.1 member
    exact isProper_plain (List.all_eq_true.1 plain c hc) _
  · simp [Word.text, Word.restText, Segment.text, continued, List.flatMap_map]
  · simp [Word.value, Word.restValue, Segment.value, List.flatMap_map]

theorem exists_spells_plain {word : List Char} (nonempty : word ≠ [])
    (plain : word.all isPlain = true) : ∃ w : Word, w.Spells word word := by
  obtain ⟨c, cs, rfl⟩ := List.exists_cons_of_ne_nil nonempty
  rw [List.all_cons, Bool.and_eq_true] at plain
  exact exists_spells_cons (isProper_plain plain.1 _) plain.2

theorem exists_spells_quoted (word : List Char) {before : List Char} (inside : '\'' ∉ before) :
    ∃ w : Word, w.Spells ('\'' :: before ++ word.flatMap quoteChar ++ ['\'']) (before ++ word) := by
  induction word generalizing before with
  | nil =>
    exact ⟨⟨.single before, []⟩, ⟨inside, by simp⟩,
      by simp [Word.text, Word.restText, Segment.text],
      by simp [Word.value, Word.restValue, Segment.value]⟩
  | cons c word ih =>
    by_cases quote : c = '\''
    · subst quote
      obtain ⟨w, ⟨first, rest⟩, text, value⟩ := ih List.not_mem_nil
      have escaped : (Segment.escape '\'').IsProper true := by simp [Segment.IsProper]
      refine ⟨⟨.single before, (0, .escape '\'') :: (0, w.first) :: w.rest⟩, ⟨inside, ?_⟩, ?_, ?_⟩
      · simp only [List.forall_mem_cons]
        exact ⟨escaped, first.anywhere true, rest⟩
      · simpa [Word.text, Word.restText, Segment.text, continued, quoteChar] using text
      · simpa [Word.value, Word.restValue, Segment.value] using value
    · have shifted : '\'' ∉ before ++ [c] := by simp [inside, Ne.symm quote]
      simpa [quoteChar, quote] using ih shifted

theorem exists_spells_quote (word : List Char) : ∃ w : Word, w.Spells (quoteChars word) word := by
  unfold quoteChars
  split
  · rename_i plain
    exact exists_spells_plain plain.1 plain.2
  · simpa using exists_spells_quoted word List.not_mem_nil

namespace Line

theorem follows_blanks {wordOpen : Bool} {gap : List Char} {items : List Item}
    (blank : ∀ c ∈ gap, c ∈ [' ', '\t', '\n'])
    (follows : Follows (if gap = [] then wordOpen else false) items) :
    Follows wordOpen (gap.map .blank ++ items) := by
  induction gap generalizing wordOpen with
  | nil => exact follows
  | cons c gap ih =>
    rw [List.forall_mem_cons] at blank
    refine ⟨blank.1, ih blank.2 ?_⟩
    simpa using follows

theorem text_blanks (gap : List Char) (items : List Item) :
    text (gap.map .blank ++ items) = gap ++ text items := by
  simp [text, List.flatMap_map, Item.text]

theorem words_blanks (gap : List Char) (items : List Item) :
    words (gap.map .blank ++ items) = words items := by
  simp [words, List.filterMap_append, List.filterMap_map, Item.value?]

end Line

def IsBlank (gap : String) : Prop := ∀ c ∈ gap.toList, c ∈ [' ', '\t', '\n']

def quotedAfter (w : String × String) : String := w.1 ++ quote w.2

theorem exists_items_quoted {words : List (String × String)} {trail : String}
    (gaps : ∀ w ∈ words, w.1 ≠ "" ∧ IsBlank w.1) (blank : IsBlank trail) :
    ∃ items, (∀ wordOpen, Line.Follows wordOpen items) ∧
      Line.text items = (words.map quotedAfter).flatMap String.toList ++ trail.toList ∧
      Line.words items = words.map (·.2.toList) := by
  induction words with
  | nil =>
    have last : ∀ wordOpen, Line.Follows wordOpen (trail.toList.map .blank ++ []) :=
      fun _ => Line.follows_blanks blank (by split <;> trivial)
    exact ⟨_, last, by rw [Line.text_blanks]; simp [Line.text], by rw [Line.words_blanks]; rfl⟩
  | cons w words ih =>
    rw [List.forall_mem_cons] at gaps
    obtain ⟨⟨nonempty, gap⟩, gaps⟩ := gaps
    obtain ⟨items, follows, text, values⟩ := ih gaps
    obtain ⟨word, proper, written, denoted⟩ := exists_spells_quote w.2.toList
    refine ⟨w.1.toList.map .blank ++ .word word :: items,
      fun _ => Line.follows_blanks gap ?_, ?_, ?_⟩
    · rw [if_neg (by simpa using nonempty)]
      exact ⟨rfl, proper, follows true⟩
    · have more : Line.text (.word word :: items) = word.text ++ Line.text items := rfl
      rw [Line.text_blanks, more, written, text]
      simp [quotedAfter, quote]
    · have more : Line.words (.word word :: items) = word.value :: Line.words items := rfl
      rw [Line.words_blanks, more, denoted, values, List.map_cons]

/-- Quoted words split into the words that were quoted, whatever they are and whatever blanks stand
around them. -/
theorem split_quoted (lead trail first : String) (others : List (String × String))
    (leading : IsBlank lead) (gaps : ∀ w ∈ others, w.1 ≠ "" ∧ IsBlank w.1)
    (trailing : IsBlank trail) :
    split (lead ++ quote first ++ String.join (others.map quotedAfter) ++ trail) =
      .ok (first :: others.map (·.2)) := by
  obtain ⟨items, follows, text, values⟩ := exists_items_quoted gaps trailing
  obtain ⟨word, proper, written, denoted⟩ := exists_spells_quote first.toList
  have line : Line.IsProper (lead.toList.map .blank ++ .word word :: items) :=
    Line.follows_blanks leading (by split <;> exact ⟨rfl, proper, follows true⟩)
  have derives : Line.Derives
      (lead ++ quote first ++ String.join (others.map quotedAfter) ++ trail).toList
      (first.toList :: others.map (·.2.toList)) := by
    refine ⟨_, line, ?_, ?_⟩
    · have more : Line.text (.word word :: items) = word.text ++ Line.text items := rfl
      rw [Line.text_blanks, more, written, text]
      simp [quote]
    · have more : Line.words (.word word :: items) = word.value :: Line.words items := rfl
      rw [Line.words_blanks, more, denoted, values]
  rw [split_of_derives derives, if_neg (by simp)]
  simp [Function.comp_def]

/-- The second word is empty and the third would be a comment. -/
theorem split_quoted_hostile : IsBlank "\t" ∧ IsBlank "\n " ∧ IsBlank "" ∧
    split ("\t" ++ quote "it's \\\n" ++
      String.join ([(" ", ""), ("\n ", "# \"")].map quotedAfter) ++ "") =
        .ok ["it's \\\n", "", "# \""] :=
  ⟨by simp [IsBlank], by simp [IsBlank], by simp [IsBlank],
    split_quoted "\t" "" "it's \\\n" [(" ", ""), ("\n ", "# \"")] (by simp [IsBlank])
      (by simp [IsBlank]) (by simp [IsBlank])⟩

end LoginSession.CommandLine

import LoginSession.Proofs.Scanning

namespace LoginSession.CommandLine

namespace Line

/-- What may come after the items of a text: nothing, or a segment that is not finished. -/
def Ends (items : List Item) (rest : List Char) : Prop :=
  rest = [] ∨ ¬EndsInComment items ∧ ∃ error, Unfinished rest error

theorem Ends.cons {item : Item} {items : List Item} {rest : List Char} (h : Ends items rest)
    (notComment : ∀ text, item ≠ .comment text) : Ends (item :: items) rest := by
  refine h.imp_right (And.imp_left fun noComment ends => ?_)
  rcases (endsInComment_cons item items).1 ends with later | ⟨-, t, same⟩
  · exact noComment later
  · exact notComment t same

/-- A text that can be read to its end from between two items, or from within a word. The segments
that come first belong to the word that is open. -/
def Reads (wordOpen : Bool) (cs : List Char) : Prop :=
  ∃ segments items rest, (wordOpen = false → segments = []) ∧
    (∀ s ∈ segments, s.2.IsProper true) ∧ Follows wordOpen items ∧ Ends items rest ∧
    Word.restText segments ++ text items ++ rest = cs

namespace Reads

variable {wordOpen : Bool} {cs : List Char}

theorem nil : Reads wordOpen [] := ⟨[], [], [], fun _ => rfl, by simp, trivial, .inl rfl, rfl⟩

theorem unfinished {error : Nat → SplitError} (h : Unfinished cs error) : Reads wordOpen cs :=
  ⟨[], [], cs, fun _ => rfl, by simp, trivial, .inr ⟨by simp [EndsInComment], error, h⟩, rfl⟩

theorem blank {c : Char} (h : Reads false cs) (blank : c ∈ [' ', '\t', '\n']) :
    Reads wordOpen (c :: cs) := by
  obtain ⟨segments, items, rest, none, -, follows, ends, rfl⟩ := h
  obtain rfl := none rfl
  exact ⟨[], .blank c :: items, rest, fun _ => rfl, by simp, ⟨blank, follows⟩, ends.cons (by simp),
    by simp [text, Item.text, Word.restText]⟩

theorem continuation (h : Reads wordOpen cs) : Reads wordOpen ('\\' :: '\n' :: cs) := by
  obtain ⟨segments, items, rest, none, proper, follows, ends, rfl⟩ := h
  cases segments with
  | nil =>
    exact ⟨[], .continuation :: items, rest, fun _ => rfl, by simp, follows, ends.cons (by simp),
      by simp [text, Item.text, Word.restText]⟩
  | cons s segments =>
    -- it stands before a segment of the open word, and belongs to it
    refine ⟨(s.1 + 1, s.2) :: segments, items, rest, fun closed => ?_, by simpa using proper,
      follows, ends, by simp [Word.restText, continued, List.replicate_succ]⟩
    cases none closed

theorem segment {s : Segment} (h : Reads true cs) (proper : s.IsProper wordOpen) :
    Reads wordOpen (s.text ++ cs) := by
  obtain ⟨segments, items, rest, -, others, follows, ends, rfl⟩ := h
  cases wordOpen with
  | true =>
    exact ⟨(0, s) :: segments, items, rest, by simp, by simpa [proper] using others, follows, ends,
      by simp [Word.restText, continued]⟩
  | false =>
    exact ⟨[], .word ⟨s, segments⟩ :: items, rest, fun _ => rfl, by simp,
      ⟨rfl, ⟨proper, others⟩, follows⟩, ends.cons (by simp),
      by simp [text, Item.text, Word.text, Word.restText]⟩

theorem comment {t : List Char} (oneLine : '\n' ∉ t) : Reads false ('#' :: t) :=
  ⟨[], [.comment t], [], fun _ => rfl, by simp, ⟨rfl, oneLine, .inl rfl, trivial⟩, .inl rfl,
    by simp [text, Item.text, Word.restText]⟩

theorem commentLine {t : List Char} (h : Reads false cs) (oneLine : '\n' ∉ t) :
    Reads false ('#' :: t ++ '\n' :: cs) := by
  obtain ⟨segments, items, rest, none, -, follows, ends, rfl⟩ := h
  obtain rfl := none rfl
  refine ⟨[], .comment t :: .blank '\n' :: items, rest, fun _ => rfl, by simp,
    ⟨rfl, oneLine, .inr rfl, by simp, follows⟩, ?_, by simp [text, Item.text, Word.restText]⟩
  refine ends.imp_right (And.imp_left fun noComment ends => ?_)
  simp only [endsInComment_cons, reduceCtorEq, false_and, or_false, exists_false, and_false] at ends
  exact noComment ends

end Reads

theorem exists_pieces (cs : List Char) : ∃ pieces : List DoublePiece, (∀ p ∈ pieces, p.IsProper) ∧
    ((∃ after, cs = pieces.flatMap (·.text) ++ '"' :: after) ∨
      ∃ last, (last = [] ∨ last = ['\\']) ∧ cs = pieces.flatMap (·.text) ++ last) := by
  match cs with
  | [] => exact ⟨[], by simp, .inr ⟨[], .inl rfl, rfl⟩⟩
  | c :: cs =>
    by_cases quote : c = '"'
    · exact ⟨[], by simp, .inl ⟨cs, by simp [quote]⟩⟩
    · by_cases backslash : c = '\\'
      · subst backslash
        match cs with
        | [] => exact ⟨[], by simp, .inr ⟨['\\'], .inr rfl, rfl⟩⟩
        | e :: cs =>
          obtain ⟨pieces, proper, found⟩ := exists_pieces cs
          refine ⟨.escape e :: pieces, List.forall_mem_cons.2 ⟨trivial, proper⟩, ?_⟩
          exact found.imp (Exists.imp fun _ same => by simp [same, DoublePiece.text])
            (Exists.imp fun _ => And.imp_right fun same => by simp [same, DoublePiece.text])
      · obtain ⟨pieces, proper, found⟩ := exists_pieces cs
        refine ⟨.plain c :: pieces, List.forall_mem_cons.2 ⟨?_, proper⟩, ?_⟩
        · simp [DoublePiece.IsProper, quote, backslash]
        · exact found.imp (Exists.imp fun _ same => by simp [same, DoublePiece.text])
            (Exists.imp fun _ => And.imp_right fun same => by simp [same, DoublePiece.text])
termination_by cs.length

theorem reads (wordOpen : Bool) (cs : List Char) : Reads wordOpen cs := by
  -- the cases are those of the scanner; each goes on behind what it has read
  match cs with
  | [] => exact .nil
  | c :: cs =>
    by_cases blank : c ∈ [' ', '\t', '\n']
    · exact (reads false cs).blank blank
    by_cases comment : c = '#' ∧ wordOpen = false
    · obtain ⟨rfl, rfl⟩ := comment
      by_cases ended : '\n' ∈ cs
      · obtain ⟨t, after, rfl, oneLine⟩ := List.eq_append_cons_of_mem ended
        exact (reads false after).commentLine oneLine
      · exact .comment ended
    by_cases single : c = '\''
    · subst single
      by_cases closed : '\'' ∈ cs
      · obtain ⟨t, after, rfl, inside⟩ := List.eq_append_cons_of_mem closed
        have read : Reads wordOpen ((Segment.single t).text ++ after) :=
          (reads true after).segment inside
        simpa [Segment.text] using read
      · exact .unfinished (.single closed)
    by_cases double : c = '"'
    · subst double
      obtain ⟨pieces, proper, ⟨after, rfl⟩ | ⟨last, atEnd, rfl⟩⟩ := exists_pieces cs
      · have read : Reads wordOpen ((Segment.double pieces).text ++ after) :=
          (reads true after).segment proper
        simpa [Segment.text] using read
      · exact .unfinished (.double proper atEnd)
    by_cases backslash : c = '\\'
    · subst backslash
      match cs with
      | [] => exact .unfinished .backslash
      | e :: cs =>
        by_cases newline : e = '\n'
        · subst newline
          exact (reads wordOpen cs).continuation
        · exact (reads true cs).segment (s := .escape e) newline
    have ordinary : c ∉ [' ', '\t', '\n', '\\', '\'', '"'] := by simp_all
    have hash : c = '#' → wordOpen = true := fun same => by simpa [same] using comment
    exact (reads true cs).segment (s := .plain c) ⟨ordinary, hash⟩
termination_by cs.length

/-- Every text is a line of the grammar, or comes to a segment that is not finished. -/
theorem derives_or_unfinished (cs : List Char) : (∃ values, Derives cs values) ∨
    ∃ front rest error, Leads front ∧ Unfinished rest error ∧ cs = front ++ rest := by
  obtain ⟨segments, items, rest, none, -, follows, rfl | ⟨noComment, error, unfinished⟩, same⟩ :=
    reads false cs
  · exact .inl ⟨_, items, follows, by simpa [none rfl, Word.restText] using same, rfl⟩
  · exact .inr ⟨text items, rest, error, ⟨items, follows, noComment, rfl⟩, unfinished,
      by simpa [none rfl, Word.restText] using same.symm⟩

end Line

theorem Line.Unfinished.ne_empty {rest : List Char} {error : Nat → SplitError}
    (h : Unfinished rest error) (position : Nat) : error position ≠ .empty := by
  cases h <;> simp

section

variable {command : String} {values : List (List Char)} {front rest : List Char}
  {error : Nat → SplitError}

theorem split_of_derives (derives : Line.Derives command.toList values) :
    split command = if values = [] then .error .empty else .ok (values.map String.ofList) := by
  unfold split splitChars
  rw [Scanner.finish_of_derives derives]
  cases values <;> rfl

theorem split_of_finish (done : (scan command.toList).finish = .ok values)
    (nonempty : values ≠ []) : split command = .ok (values.map String.ofList) := by
  unfold split splitChars
  rw [done]
  cases values with
  | nil => exact absurd rfl nonempty
  | cons w values => rfl

theorem split_of_unfinished (leads : Line.Leads front) (unfinished : Line.Unfinished rest error)
    (same : command.toList = front ++ rest) :
    split command = .error (error (String.ofList front).utf8ByteSize) := by
  unfold split splitChars
  rw [same, Scanner.finish_of_unfinished leads unfinished, String.utf8ByteSize_ofList]
  rfl

theorem split_cases (command : String) :
    (Line.Derives command.toList [] ∧ split command = .error .empty) ∨
    (∃ ws, ws ≠ [] ∧ Line.Derives command.toList (ws.map String.toList) ∧ split command = .ok ws) ∨
    ∃ front rest error, Line.Leads front ∧ Line.Unfinished rest error ∧
      command.toList = front ++ rest ∧
      split command = .error (error (String.ofList front).utf8ByteSize) := by
  rcases Line.derives_or_unfinished command.toList with ⟨values, derives⟩ |
    ⟨front, rest, error, leads, unfinished, same⟩
  · have result := split_of_derives derives
    by_cases none : values = []
    · subst none
      exact .inl ⟨derives, result⟩
    · rw [if_neg none] at result
      exact .inr (.inl ⟨values.map String.ofList, by simpa using none,
        by simpa [Function.comp_def] using derives, result⟩)
  · exact .inr (.inr ⟨front, rest, error, leads, unfinished, same,
      split_of_unfinished leads unfinished same⟩)

theorem derives_of_ok {ws : List String} (ok : split command = .ok ws) :
    ws ≠ [] ∧ Line.Derives command.toList (ws.map String.toList) := by
  rcases split_cases command with ⟨-, empty⟩ | ⟨_, nonempty, derives, ok'⟩ |
    ⟨_, _, _, -, -, -, failed⟩
  · cases empty.symm.trans ok
  · obtain rfl := Except.ok.inj (ok'.symm.trans ok)
    exact ⟨nonempty, derives⟩
  · cases failed.symm.trans ok

theorem derives_of_empty (empty : split command = .error .empty) :
    Line.Derives command.toList [] := by
  rcases split_cases command with ⟨derives, -⟩ | ⟨_, -, -, ok⟩ |
    ⟨_, _, _, -, unfinished, -, failed⟩
  · exact derives
  · cases ok.symm.trans empty
  · exact absurd (Except.error.inj (failed.symm.trans empty)) (unfinished.ne_empty _)

theorem unfinished_of_error {e : SplitError} (notEmpty : e ≠ .empty)
    (failed : split command = .error e) : ∃ front rest error, Line.Leads front ∧
      Line.Unfinished rest error ∧ command.toList = front ++ rest ∧
      e = error (String.ofList front).utf8ByteSize := by
  rcases split_cases command with ⟨-, empty⟩ | ⟨_, -, -, ok⟩ |
    ⟨front, rest, error, leads, unfinished, same, failed'⟩
  · exact absurd (Except.error.inj (failed.symm.trans empty)) notEmpty
  · cases ok.symm.trans failed
  · exact ⟨front, rest, error, leads, unfinished, same,
      Except.error.inj (failed.symm.trans failed')⟩

end

/-- A command splits into the words that it derives, if it derives any, and each error tells of one
way in which it does not. -/
theorem split_iff (command : String) :
    (∀ ws, split command = .ok ws ↔
      ws ≠ [] ∧ Line.Derives command.toList (ws.map String.toList)) ∧
    (split command = .error .empty ↔ Line.Derives command.toList []) ∧
    ∀ e, e ≠ .empty → (split command = .error e ↔ ∃ front rest error, Line.Leads front ∧
      Line.Unfinished rest error ∧ command.toList = front ++ rest ∧
      e = error (String.ofList front).utf8ByteSize) := by
  have cases := split_cases command
  refine ⟨fun ws => ⟨fun h => ?_, fun ⟨nonempty, derives⟩ => ?_⟩, ⟨fun h => ?_, fun derives => ?_⟩,
    fun e notEmpty => ⟨fun h => ?_, ?_⟩⟩
  · rcases cases with ⟨-, empty⟩ | ⟨_, nonempty, derives, ok⟩ | ⟨_, _, _, -, -, -, failed⟩
    · rw [empty] at h
      cases h
    · rw [ok] at h
      cases h
      exact ⟨nonempty, derives⟩
    · rw [failed] at h
      cases h
  · rw [split_of_derives derives, if_neg (by simpa using nonempty)]
    simp [Function.comp_def]
  · rcases cases with ⟨derives, -⟩ | ⟨_, -, -, ok⟩ | ⟨_, _, _, -, unfinished, -, failed⟩
    · exact derives
    · rw [ok] at h
      cases h
    · rw [failed] at h
      exact absurd (Except.error.inj h) (unfinished.ne_empty _)
  · rw [split_of_derives derives, if_pos rfl]
  · rcases cases with ⟨-, empty⟩ | ⟨_, -, -, ok⟩ |
      ⟨front, rest, error, leads, unfinished, same, failed⟩
    · rw [empty] at h
      exact absurd (Except.error.inj h).symm notEmpty
    · rw [ok] at h
      cases h
    · rw [failed] at h
      exact ⟨front, rest, error, leads, unfinished, same, (Except.error.inj h).symm⟩
  · rintro ⟨front, rest, error, leads, unfinished, same, rfl⟩
    exact split_of_unfinished leads unfinished same

example : split "a\\\n#b # c\n''" = .ok ["a#b", ""] := rfl

end LoginSession.CommandLine

import LoginSession.CommandLine.Grammar
import Mathlib.Data.String.Basic

namespace LoginSession.CommandLine

open String (utf8Len utf8Len_nil utf8Len_cons utf8Len_append)

theorem isSeparator_iff {c : Char} : isSeparator c = true ↔ c ∈ [' ', '\t', '\n'] := by
  simp [isSeparator, or_assoc]

theorem DoublePiece.value_escape (c : Char) : value (.escape c) =
    if c = '\n' then [] else if isDoubleQuoteEscape c = true then [c] else ['\\', c] := by
  have escapes : isDoubleQuoteEscape c = true ↔ c ∈ ['$', '\x60', '"', '\\'] := by
    simp [isDoubleQuoteEscape, or_assoc]
  simp only [value, escapes]

namespace Line

theorem endsInComment_cons (item : Item) (items : List Item) : EndsInComment (item :: items) ↔
    EndsInComment items ∨ items = [] ∧ ∃ text, item = .comment text := by
  cases items with
  | nil => simp [EndsInComment]
  | cons next items => simp [EndsInComment, List.getLast?_cons_cons]

theorem EndsInComment.cons {item : Item} {items : List Item} (ends : EndsInComment items) :
    EndsInComment (item :: items) := (endsInComment_cons item items).2 (.inl ends)

end Line

/-- Where the scanner stands between two items. -/
def Mode.between (wordOpen : Bool) : Mode := if wordOpen then .word else .gap

namespace Scanner

def read (s : Scanner) (cs : List Char) : Scanner := cs.foldl step s

@[simp] theorem read_nil (s : Scanner) : s.read [] = s := rfl

@[simp] theorem read_cons (s : Scanner) (c : Char) (cs : List Char) :
    s.read (c :: cs) = (s.step c).read cs := rfl

@[simp] theorem read_append (s : Scanner) (a b : List Char) :
    s.read (a ++ b) = (s.read a).read b := foldl_step_append s a b

section

variable {words : List (List Char)} {word : List Char} {offset p : Nat} {wordOpen : Bool} {c : Char}

theorem step_single (other : c ≠ '\'') : step ⟨words, word, .single p, offset⟩ c =
    ⟨words, c :: word, .single p, offset + c.utf8Size⟩ := by
  simp [step, stepMode, keep, other]

theorem step_double (notQuote : c ≠ '"') (notBackslash : c ≠ '\\') :
    step ⟨words, word, .double p, offset⟩ c =
      ⟨words, c :: word, .double p, offset + c.utf8Size⟩ := by
  simp [step, stepMode, keep, notQuote, notBackslash]

theorem step_doubleEscape : step ⟨words, word, .doubleEscape p, offset⟩ c =
    ⟨words, (DoublePiece.value (.escape c)).reverse ++ word, .double p, offset + c.utf8Size⟩ := by
  rw [DoublePiece.value_escape]
  by_cases newline : c = '\n'
  · simp [step, stepMode, newline]
  · by_cases escapes : isDoubleQuoteEscape c = true <;>
      simp [step, stepMode, keep, newline, escapes]

theorem step_escape (notNewline : c ≠ '\n') : step ⟨words, word, .escape wordOpen, offset⟩ c =
    ⟨words, c :: word, .between true, offset + c.utf8Size⟩ := by
  simp [step, stepMode, keep, notNewline, Mode.between]

theorem step_continued : step ⟨words, word, .escape wordOpen, offset⟩ '\n' =
    ⟨words, word, .between wordOpen, offset + '\n'.utf8Size⟩ := rfl

theorem step_plain (ordinary : c ∉ [' ', '\t', '\n', '\\', '\'', '"'])
    (hash : c = '#' → wordOpen = true) :
    step ⟨words, word, .between wordOpen, offset⟩ c =
      ⟨words, c :: word, .between true, offset + c.utf8Size⟩ := by
  simp only [List.mem_cons, List.not_mem_nil, or_false, not_or] at ordinary
  obtain ⟨space, tab, newline, backslash, single, double⟩ := ordinary
  have separated : ¬isSeparator c = true := by simp [isSeparator, space, tab, newline]
  have uncommented : ¬(c = '#' ∧ wordOpen = false) := by
    rintro ⟨comment, closed⟩
    cases closed.symm.trans (hash comment)
  have kept : ∀ s : Scanner, s.stepPlain c wordOpen = s.keep c .word := fun s => by
    rw [stepPlain, if_neg separated, if_neg uncommented, if_neg backslash, if_neg single,
      if_neg double]
  cases wordOpen with
  | true => simp only [step, stepMode, Mode.between, kept, keep, if_true]
  | false => simp only [step, stepMode, Mode.between, kept, keep, Bool.false_eq_true, if_false,
      if_true]

theorem step_backslash : step ⟨words, word, .between wordOpen, offset⟩ '\\' =
    ⟨words, word, .escape wordOpen, offset + '\\'.utf8Size⟩ := by
  cases wordOpen <;> rfl

theorem step_openSingle : step ⟨words, word, .between wordOpen, offset⟩ '\'' =
    ⟨words, word, .single offset, offset + '\''.utf8Size⟩ := by
  cases wordOpen <;> rfl

theorem step_openDouble : step ⟨words, word, .between wordOpen, offset⟩ '"' =
    ⟨words, word, .double offset, offset + '"'.utf8Size⟩ := by
  cases wordOpen <;> rfl

theorem read_single {t : List Char} (closed : '\'' ∉ t) :
    read ⟨words, word, .single p, offset⟩ t =
      ⟨words, t.reverse ++ word, .single p, offset + utf8Len t⟩ := by
  induction t generalizing word offset with
  | nil => rfl
  | cons c t ih =>
    rw [List.mem_cons, not_or] at closed
    rw [read_cons, step_single (Ne.symm closed.1), ih closed.2, utf8Len_cons]
    simp [Nat.add_assoc, Nat.add_comm]

theorem read_piece {q : DoublePiece} (proper : q.IsProper) :
    read ⟨words, word, .double p, offset⟩ q.text =
      ⟨words, q.value.reverse ++ word, .double p, offset + utf8Len q.text⟩ := by
  cases q with
  | plain c =>
    simp only [DoublePiece.IsProper, List.mem_cons, List.not_mem_nil, or_false, not_or] at proper
    rw [DoublePiece.text, read_cons, step_double proper.1 proper.2]
    simp [DoublePiece.value, utf8Len]
  | escape c =>
    have opened : step ⟨words, word, .double p, offset⟩ '\\' =
        ⟨words, word, .doubleEscape p, offset + '\\'.utf8Size⟩ := rfl
    rw [DoublePiece.text, read_cons, opened, read_cons, step_doubleEscape]
    simp [utf8Len]
    omega

theorem read_pieces {qs : List DoublePiece} (proper : ∀ q ∈ qs, q.IsProper) :
    read ⟨words, word, .double p, offset⟩ (qs.flatMap (·.text)) =
      ⟨words, (qs.flatMap (·.value)).reverse ++ word, .double p,
        offset + utf8Len (qs.flatMap (·.text))⟩ := by
  induction qs generalizing word offset with
  | nil => rfl
  | cons q qs ih =>
    rw [List.forall_mem_cons] at proper
    rw [List.flatMap_cons, read_append, read_piece proper.1, ih proper.2, utf8Len_append]
    simp [Nat.add_assoc]

theorem read_segment {s : Segment} (proper : s.IsProper wordOpen) :
    read ⟨words, word, .between wordOpen, offset⟩ s.text =
      ⟨words, s.value.reverse ++ word, .between true, offset + utf8Len s.text⟩ := by
  cases s with
  | plain c =>
    rw [Segment.text, read_cons, step_plain proper.1 proper.2]
    simp [Segment.value, utf8Len]
  | escape c =>
    rw [Segment.text, read_cons, step_backslash, read_cons, step_escape proper]
    simp [Segment.value, utf8Len]
    omega
  | single t =>
    have closes : ∀ w o, step ⟨words, w, .single offset, o⟩ '\'' =
        ⟨words, w, .between true, o + '\''.utf8Size⟩ := fun _ _ => rfl
    rw [Segment.text, List.cons_append, read_cons, step_openSingle, read_append,
      read_single proper, read_cons, closes]
    simp [Segment.value, utf8Len_append, utf8Len_cons]
    omega
  | double qs =>
    have closes : ∀ w o, step ⟨words, w, .double offset, o⟩ '"' =
        ⟨words, w, .between true, o + '"'.utf8Size⟩ := fun _ _ => rfl
    rw [Segment.text, List.cons_append, read_cons, step_openDouble, read_append,
      read_pieces proper, read_cons, closes]
    simp [Segment.value, utf8Len_append, utf8Len_cons]
    omega

theorem read_continued (count : Nat) :
    read ⟨words, word, .between wordOpen, offset⟩ (continued count) =
      ⟨words, word, .between wordOpen, offset + utf8Len (continued count)⟩ := by
  induction count generalizing offset with
  | zero => rfl
  | succ count ih =>
    have more : continued (count + 1) = '\\' :: '\n' :: continued count := rfl
    rw [more, read_cons, step_backslash, read_cons, step_continued, ih]
    simp [utf8Len_cons]
    omega

theorem read_restText {rest : List (Nat × Segment)} (proper : ∀ s ∈ rest, s.2.IsProper true) :
    read ⟨words, word, .between true, offset⟩ (Word.restText rest) =
      ⟨words, (Word.restValue rest).reverse ++ word, .between true,
        offset + utf8Len (Word.restText rest)⟩ := by
  induction rest generalizing word offset with
  | nil => rfl
  | cons s rest ih =>
    rw [List.forall_mem_cons] at proper
    have more : Word.restText (s :: rest) = continued s.1 ++ s.2.text ++ Word.restText rest := rfl
    rw [more, read_append, read_append, read_continued, read_segment proper.1, ih proper.2]
    simp [Word.restValue, utf8Len_append, Nat.add_assoc]

theorem read_comment {t : List Char} (oneLine : '\n' ∉ t) :
    read ⟨words, word, .comment, offset⟩ t = ⟨words, word, .comment, offset + utf8Len t⟩ := by
  induction t generalizing offset with
  | nil => rfl
  | cons c t ih =>
    rw [List.mem_cons, not_or] at oneLine
    have kept : step ⟨words, word, .comment, offset⟩ c =
        ⟨words, word, .comment, offset + c.utf8Size⟩ := by
      simp [step, stepMode, Ne.symm oneLine.1]
    rw [read_cons, kept, ih oneLine.2, utf8Len_cons, Nat.add_assoc, Nat.add_comm c.utf8Size]

end

theorem offset_read (s : Scanner) (cs : List Char) :
    (s.read cs).offset = s.offset + utf8Len cs := by
  induction cs generalizing s with
  | nil => rfl
  | cons c cs ih =>
    have moved : (s.step c).offset = s.offset + c.utf8Size := rfl
    rw [read_cons, ih, utf8Len_cons, moved]
    omega

/-- The scanner stands between two items, with these words behind it; the last of them may be open.
-/
structure Between (s : Scanner) (wordOpen : Bool) (values : List (List Char)) : Prop where
  mode : s.mode = .between wordOpen
  closed : wordOpen = false → s.word = []
  values : s.words.reverse ++ (if wordOpen then [s.word.reverse] else []) = values

namespace Between

variable {s : Scanner} {wordOpen : Bool} {values : List (List Char)}

theorem start : Between {} false [] := ⟨rfl, fun _ => rfl, rfl⟩

theorem finish (h : Between s wordOpen values) : s.finish = .ok values := by
  rw [← h.values, Scanner.finish, h.mode]
  cases wordOpen <;> simp [Mode.between, close]

theorem blank (h : Between s wordOpen values) {c : Char} (blank : c ∈ [' ', '\t', '\n']) :
    Between (s.step c) false values := by
  have separates := isSeparator_iff.2 blank
  obtain ⟨words, word, mode, offset⟩ := s
  obtain ⟨rfl, closed, rfl⟩ := h
  cases wordOpen with
  | false =>
    have empty : word = [] := closed rfl
    constructor <;> simp [step, stepMode, stepPlain, Mode.between, separates, empty]
  | true => constructor <;> simp [step, stepMode, stepPlain, Mode.between, separates, close]

theorem continuation (h : Between s wordOpen values) :
    Between (s.read Item.continuation.text) wordOpen values := by
  obtain ⟨words, word, mode, offset⟩ := s
  obtain ⟨rfl, closed, rfl⟩ := h
  rw [Item.text, read_cons, step_backslash, read_cons, step_continued]
  exact ⟨rfl, closed, rfl⟩

theorem goOn (h : Between s wordOpen values) {w : Word} (first : w.first.IsProper wordOpen)
    (rest : ∀ s ∈ w.rest, s.2.IsProper true) :
    Between (s.read w.text) true (s.words.reverse ++ [s.word.reverse ++ w.value]) := by
  obtain ⟨words, word, mode, offset⟩ := s
  obtain ⟨rfl, -, -⟩ := h
  rw [Word.text, read_append, read_segment first, read_restText rest]
  exact ⟨rfl, by simp, by simp [Word.value]⟩

theorem word (h : Between s false values) {w : Word} (proper : w.IsProper) :
    Between (s.read w.text) true (values ++ [w.value]) := by
  have next := h.goOn proper.1 proper.2
  rw [h.closed rfl] at next
  simpa [← h.values] using next

theorem comment (h : Between s false values) {t : List Char} (oneLine : '\n' ∉ t) :
    s.read (Item.comment t).text =
      { s with mode := .comment, offset := s.offset + utf8Len (Item.comment t).text } := by
  obtain ⟨words, word, mode, offset⟩ := s
  obtain ⟨rfl, -, -⟩ := h
  have opens : step ⟨words, word, .between false, offset⟩ '#' =
      ⟨words, word, .comment, offset + '#'.utf8Size⟩ := rfl
  rw [Item.text, read_cons, opens, read_comment oneLine, utf8Len_cons, Nat.add_assoc,
    Nat.add_comm '#'.utf8Size]

theorem read_line {items : List Item} (h : Between s wordOpen values)
    (follows : Line.Follows wordOpen items) :
    (s.read (Line.text items)).finish = .ok (values ++ Line.words items) ∧
      (¬Line.EndsInComment items →
        ∃ wordOpen, Between (s.read (Line.text items)) wordOpen (values ++ Line.words items)) ∧
      (Line.EndsInComment items → (s.read (Line.text items)).mode = .comment) := by
  induction items generalizing s wordOpen values with
  | nil =>
    rw [Line.words, List.filterMap_nil, List.append_nil]
    exact ⟨h.finish, fun _ => ⟨_, h⟩, fun ends => by simp [Line.EndsInComment] at ends⟩
  | cons item rest ih =>
    have text : Line.text (item :: rest) = item.text ++ Line.text rest := rfl
    have later : ¬Line.EndsInComment (item :: rest) → ¬Line.EndsInComment rest :=
      mt Line.EndsInComment.cons
    have still (other : ∀ t, item ≠ .comment t) :
        Line.EndsInComment (item :: rest) → Line.EndsInComment rest := fun ends =>
      ((Line.endsInComment_cons item rest).1 ends).resolve_right fun ⟨_, t, same⟩ => other t same
    rw [text, read_append]
    cases item with
    | blank c =>
      obtain ⟨finish, between, comment⟩ := ih (h.blank follows.1) follows.2
      exact ⟨finish, between ∘ later, comment ∘ still (by simp)⟩
    | continuation =>
      obtain ⟨finish, between, comment⟩ := ih h.continuation follows
      exact ⟨finish, between ∘ later, comment ∘ still (by simp)⟩
    | word w =>
      obtain ⟨rfl, proper, follows⟩ := follows
      obtain ⟨finish, between, comment⟩ := ih (h.word proper) follows
      have values' : values ++ Line.words (.word w :: rest) =
          values ++ [w.value] ++ Line.words rest := by simp [Line.words, Item.value?]
      rw [values']
      exact ⟨finish, between ∘ later, comment ∘ still (by simp)⟩
    | comment t =>
      obtain ⟨rfl, oneLine, last | next, follows⟩ := follows
      · subst last
        rw [h.comment oneLine]
        refine ⟨?_, fun notComment => absurd ⟨t, rfl⟩ notComment, fun _ => rfl⟩
        simpa [Line.text, Line.words, Item.value?, Scanner.finish] using h.values
      · -- the newline after a comment does what a newline in the gap does
        obtain ⟨rest', rfl⟩ := List.head?_eq_some_iff.1 next
        let gap : Scanner := { s with offset := s.offset + utf8Len (Item.comment t).text }
        have same : (s.read (Item.comment t).text).read (Line.text (.blank '\n' :: rest')) =
            gap.read (Line.text (.blank '\n' :: rest')) := by
          have mode : gap.mode = .gap := h.mode
          have newline : step { gap with mode := .comment } '\n' = step gap '\n' := by
            simp [step, stepMode, mode, stepPlain, isSeparator]
          rw [h.comment oneLine]
          exact congrArg (·.read (Line.text rest')) newline
        obtain ⟨finish, between, comment⟩ := ih (s := gap) ⟨h.mode, h.closed, h.values⟩ follows
        have ends := (Line.endsInComment_cons (.comment t) (.blank '\n' :: rest')).1
        rw [same]
        exact ⟨finish, between ∘ later, fun h => comment ((ends h).resolve_right (by simp))⟩

end Between

theorem finish_of_derives {cs : List Char} {values : List (List Char)}
    (derives : Line.Derives cs values) : (scan cs).finish = .ok values := by
  obtain ⟨items, proper, rfl, rfl⟩ := derives
  exact (Between.start.read_line proper).1

theorem finish_of_unfinished {front rest : List Char} {error : Nat → SplitError}
    (leads : Line.Leads front) (unfinished : Line.Unfinished rest error) :
    (scan (front ++ rest)).finish = .error (error (utf8Len front)) := by
  obtain ⟨items, proper, notComment, rfl⟩ := leads
  obtain ⟨wordOpen, between⟩ := (Between.start.read_line proper).2.1 notComment
  have position := offset_read {} (Line.text items)
  have scanned : scan (Line.text items ++ rest) = (read {} (Line.text items)).read rest :=
    read_append {} (Line.text items) rest
  rw [scanned]
  generalize read {} (Line.text items) = s at between position
  obtain ⟨words, word, mode, offset⟩ := s
  obtain ⟨rfl, -, -⟩ := between
  obtain rfl : offset = utf8Len (Line.text items) := position.trans (Nat.zero_add _)
  cases unfinished with
  | backslash => rw [read_cons, step_backslash]; rfl
  | single unclosed => rw [read_cons, step_openSingle, read_single unclosed]; rfl
  | double proper atEnd =>
    rw [List.cons_append, read_cons, step_openDouble, read_append, read_pieces proper]
    rcases atEnd with rfl | rfl <;> rfl

end Scanner

end LoginSession.CommandLine

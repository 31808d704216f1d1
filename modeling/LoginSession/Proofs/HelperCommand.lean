import LoginSession.Config
import LoginSession.Proofs.Joining
import LoginSession.Proofs.Quoting

namespace LoginSession

open CommandLine

namespace CommandLine

theorem quote_of_plain {word : String} (nonempty : word ≠ "")
    (plain : word.toList.all isPlain = true) : quote word = word := by
  have nonempty' : word.toList ≠ [] := by simpa using nonempty
  rw [quote, quoteChars, if_pos ⟨nonempty', plain⟩, String.ofList_toList]

theorem isPlain_of_isDigit {c : Char} (digit : c.isDigit = true) : isPlain c = true := by
  simp [isPlain, Char.isAlphanum, digit]

theorem quote_repr (n : Nat) : quote n.repr = n.repr := by
  have digits : n.repr.toList = Nat.toDigits 10 n := by simp
  refine quote_of_plain ?_ (List.all_eq_true.2 fun c member => ?_)
  · rw [Ne, ← String.toList_inj, digits]
    exact Nat.toDigits_ne_nil
  · rw [digits] at member
    exact isPlain_of_isDigit (Nat.isDigit_of_mem_toDigits (by decide) (by decide) member)

namespace Line

variable {items more : List Item} {wordOpen : Bool}

theorem follows_comment {t more : List Char} (follows : Follows wordOpen (items ++ [.comment t]))
    (oneLine : '\n' ∉ more) : Follows wordOpen (items ++ [.comment (t ++ more)]) := by
  induction items generalizing wordOpen with
  | nil =>
    obtain ⟨closed, inside, -, -⟩ := follows
    exact ⟨closed, by simp [inside, oneLine], .inl rfl, trivial⟩
  | cons item items ih =>
    cases item with
    | blank c => exact ⟨follows.1, ih follows.2⟩
    | continuation => exact ih follows
    | word w => exact ⟨follows.1, follows.2.1, ih follows.2.2⟩
    | comment u =>
      obtain ⟨closed, inside, last, follows⟩ := follows
      refine ⟨closed, inside, ?_, ih follows⟩
      cases items with
      | nil => simp at last
      | cons item items => simpa using last

theorem Derives.append {cs : List Char} {values : List (List Char)} (derives : Derives cs values)
    (noComment : ¬IsCommented cs) (next : ∀ wordOpen, Follows wordOpen more) :
    Derives (cs ++ text more) (values ++ words more) := by
  obtain ⟨items, proper, rfl, rfl⟩ := derives
  have open' : ¬EndsInComment items := fun ends => noComment ⟨items, proper, ends, rfl⟩
  exact ⟨items ++ more, follows_append proper (.inl open') next, text_append .., words_append ..⟩

theorem IsCommented.append {cs more : List Char} (commented : IsCommented cs)
    (oneLine : '\n' ∉ more) : ∃ values, Derives cs values ∧ Derives (cs ++ more) values := by
  obtain ⟨items, proper, ⟨t, last⟩, rfl⟩ := commented
  obtain ⟨init, rfl⟩ := List.getLast?_eq_some_iff.1 last
  refine ⟨_, ⟨_, proper, rfl, rfl⟩, _, follows_comment proper oneLine, ?_, ?_⟩
  · simp [text, Item.text]
  · simp [words, Item.value?]

theorem Unfinished.append {rest more : List Char} {error : Nat → SplitError}
    (unfinished : Unfinished rest error) (quoted : rest ≠ ['\\'])
    (inert : ∀ c ∈ more, c ∉ ['\'', '"']) : Unfinished (rest ++ more) error := by
  cases unfinished with
  | backslash => exact absurd rfl quoted
  | single unclosed =>
    refine .single fun member => ?_
    rcases List.mem_append.1 member with before | after
    · exact unclosed before
    · exact inert _ after (by simp)
  | @double pieces last proper atEnd =>
    have unclosed : '"' ∉ last ++ more := by
      intro member
      rcases List.mem_append.1 member with before | after
      · rcases atEnd with rfl | rfl <;> simp at before
      · exact inert _ after (by simp)
    obtain ⟨later, proper', ⟨after, same⟩ | ⟨last', atEnd', same⟩⟩ := exists_pieces (last ++ more)
    · exact absurd (by simp [same]) unclosed
    · have longer := Unfinished.double (List.forall_mem_append.2 ⟨proper, proper'⟩) atEnd'
      simpa [same] using longer

end Line

end CommandLine

namespace Config

variable (c : Config) (uid pid : UInt32)

/-- The words that tell a helper whose session it is asked about. -/
def identity : List String := ["--uid", toString uid.toNat, "--pid", toString pid.toNat]

def identityText : String := " --uid " ++ toString uid.toNat ++ " --pid " ++ toString pid.toNat

theorem helperCommand_eq : c.helperCommand uid pid = c.helper ++ identityText uid pid := by
  simp only [helperCommand, identityText, String.append_assoc]

theorem inert_of_mem_identityText {d : Char} (member : d ∈ (identityText uid pid).toList) :
    d ∉ ['\n', '\'', '"'] := by
  have digits : ∀ n : Nat, d ∈ Nat.toDigits 10 n → d.isDigit = true := fun _ =>
    Nat.isDigit_of_mem_toDigits (by decide) (by decide)
  have plain : d = ' ' ∨ isPlain d = true := by
    simp only [identityText, String.toList_append, List.mem_append] at member
    rcases member with ((flag | number) | flag) | number
    · exact (by simp [isPlain] : ∀ d ∈ " --uid ".toList, d = ' ' ∨ isPlain d = true) d flag
    · exact .inr (isPlain_of_isDigit (digits _ (by simpa using number)))
    · exact (by simp [isPlain] : ∀ d ∈ " --pid ".toList, d = ' ' ∨ isPlain d = true) d flag
    · exact .inr (isPlain_of_isDigit (digits _ (by simpa using number)))
  rcases plain with rfl | plain
  · decide
  · rintro same
    simp only [List.mem_cons, List.not_mem_nil, or_false] at same
    rcases same with rfl | rfl | rfl <;> exact absurd plain (by decide)

theorem exists_lateIdentity : ∃ items, (∀ wordOpen, Line.Follows wordOpen items) ∧
    " --uid".toList ++ Line.text items = (identityText uid pid).toList ∧
    Line.words items = (identity uid pid).tail.map String.toList := by
  have flag : quote "--pid" = "--pid" := quote_of_plain (by decide) (by decide)
  let quoted := [(" ", toString uid.toNat), (" ", "--pid"), (" ", toString pid.toNat)]
  have blanks : ∀ w ∈ quoted, w.1 ≠ "" ∧ IsBlank w.1 := by
    simp [quoted, IsBlank]
  obtain ⟨items, follows, text, words⟩ := exists_items_quoted blanks (by simp [IsBlank] : IsBlank "")
  refine ⟨items, follows, ?_, words⟩
  rw [text]
  simp [quoted, quotedAfter, quote_repr, flag, identityText]

theorem exists_identity : ∃ items, (∀ wordOpen, Line.Follows wordOpen items) ∧
    Line.text items = (identityText uid pid).toList ∧
    Line.words items = (identity uid pid).map String.toList := by
  obtain ⟨items, follows, text, words⟩ := exists_lateIdentity uid pid
  obtain ⟨flag, proper, written, denoted⟩ :=
    exists_spells_plain (by decide : "--uid".toList ≠ []) (by decide)
  refine ⟨.blank ' ' :: .word flag :: items, fun _ => ⟨by simp, rfl, proper, follows true⟩, ?_, ?_⟩
  · have more : Line.text (.blank ' ' :: .word flag :: items) =
        ' ' :: (flag.text ++ Line.text items) := rfl
    rw [more, written, ← text]
    rfl
  · have more : Line.words (.blank ' ' :: .word flag :: items) =
        flag.value :: Line.words items := rfl
    rw [more, denoted, words]
    rfl

variable {c} {values : List (List Char)} {front rest : List Char}

theorem split_of_notCommented (derives : Line.Derives c.helper.toList values)
    (noComment : ¬Line.IsCommented c.helper.toList) :
    split (c.helperCommand uid pid) = .ok (values.map String.ofList ++ identity uid pid) := by
  obtain ⟨items, follows, text, words⟩ := exists_identity uid pid
  have whole := derives.append noComment follows
  rw [text, ← String.toList_append, ← helperCommand_eq] at whole
  rw [split_of_derives whole, words, if_neg (by simp [identity])]
  simp [Function.comp_def]

theorem split_of_commented (commented : Line.IsCommented c.helper.toList) :
    split (c.helperCommand uid pid) = split c.helper := by
  have oneLine : '\n' ∉ (identityText uid pid).toList :=
    fun newline => inert_of_mem_identityText uid pid newline (by simp)
  obtain ⟨values, derives, whole⟩ := commented.append oneLine
  rw [← String.toList_append, ← helperCommand_eq] at whole
  rw [split_of_derives derives, split_of_derives whole]

theorem split_of_unclosed {error : Nat → SplitError} (leads : Line.Leads front)
    (unfinished : Line.Unfinished rest error) (quoted : rest ≠ ['\\'])
    (same : c.helper.toList = front ++ rest) :
    split (c.helperCommand uid pid) = .error (error (String.ofList front).utf8ByteSize) := by
  have inert : ∀ d ∈ (identityText uid pid).toList, d ∉ ['\'', '"'] :=
    fun d member closes => inert_of_mem_identityText uid pid member (.tail _ closes)
  have longer := unfinished.append quoted inert
  refine split_of_unfinished leads longer ?_
  rw [helperCommand_eq, String.toList_append, same, List.append_assoc]

theorem finish_of_backslash (leads : Line.Leads front) : ∃ words last, ∀ joined : List Char,
    joined.all isPlain = true →
      Scanner.Between (Scanner.read {} (front ++ '\\' :: ' ' :: joined)) true
        (words ++ [last ++ ' ' :: joined]) := by
  obtain ⟨items, proper, noComment, rfl⟩ := leads
  obtain ⟨wordOpen, between⟩ := (Scanner.Between.start.read_line proper).2.1 noComment
  let s := Scanner.read {} (Line.text items)
  refine ⟨s.words.reverse, s.word.reverse, fun joined plain => ?_⟩
  have blank : (Segment.escape ' ').IsProper false := by simp [Segment.IsProper]
  obtain ⟨w, ⟨first, rest⟩, written, denoted⟩ := exists_spells_cons blank plain
  have next := between.goOn (first.anywhere wordOpen) rest
  rw [written, denoted, ← Scanner.read_append] at next
  exact next

theorem split_of_backslash (leads : Line.Leads front) (same : c.helper.toList = front ++ ['\\']) :
    ∃ words last, split (c.helper ++ " ") = .ok (words ++ [last ++ " "]) ∧
      split (c.helperCommand uid pid) =
        .ok (words ++ (last ++ " --uid") :: (identity uid pid).tail) := by
  obtain ⟨words, last, joins⟩ := finish_of_backslash leads
  obtain ⟨items, follows, text, values⟩ := exists_lateIdentity uid pid
  have blank : (scan (c.helper ++ " ").toList).finish = .ok (words ++ [last ++ [' ']]) := by
    rw [String.toList_append, same, List.append_assoc]
    exact (joins [] rfl).finish
  have whole : (scan (c.helperCommand uid pid).toList).finish =
      .ok (words ++ [last ++ " --uid".toList] ++ Line.words items) := by
    have joined := ((joins "--uid".toList (by decide)).read_line (follows true)).1
    rw [← Scanner.read_append, List.append_assoc] at joined
    rw [helperCommand_eq, String.toList_append, same, ← text, List.append_assoc]
    exact joined
  refine ⟨words.map String.ofList, String.ofList last, ?_, ?_⟩
  · rw [split_of_finish blank (by simp)]
    simp
  · rw [split_of_finish whole (by simp), values]
    simp [Function.comp_def]

/-- A helper is given the identity of its session as words of their own only where its command line
ends outside comments and not in a backslash. A comment swallows the identity; after a backslash the
first flag is joined to the last word; a line without words runs the first flag as its program. Only
a quote that is never closed is still refused. -/
theorem split_helperCommand (c : Config) (uid pid : UInt32) :
    (Line.IsCommented c.helper.toList → split (c.helperCommand uid pid) = split c.helper) ∧
    (¬Line.IsCommented c.helper.toList →
      (∀ words, split c.helper = .ok words →
        split (c.helperCommand uid pid) = .ok (words ++ identity uid pid)) ∧
      (split c.helper = .error .empty →
        split (c.helperCommand uid pid) = .ok (identity uid pid))) ∧
    (split c.helper = .error .trailingBackslash →
      ∃ words last, split (c.helper ++ " ") = .ok (words ++ [last ++ " "]) ∧
        split (c.helperCommand uid pid) =
          .ok (words ++ (last ++ " --uid") :: (identity uid pid).tail)) ∧
    ∀ e, e ≠ .empty → e ≠ .trailingBackslash → split c.helper = .error e →
      split (c.helperCommand uid pid) = .error e := by
  refine ⟨split_of_commented uid pid, fun noComment => ?_, fun backslash => ?_,
    fun e notEmpty notBackslash failed => ?_⟩
  · rcases split_cases c.helper with ⟨derives, empty⟩ | ⟨words, -, derives, ok⟩ |
      ⟨_, _, _, -, unfinished, -, failed⟩
    · have whole := split_of_notCommented uid pid derives noComment
      exact ⟨fun words ok => by simp [empty] at ok, fun _ => whole⟩
    · have whole := split_of_notCommented uid pid derives noComment
      refine ⟨fun words' ok' => ?_, fun empty => by simp [ok] at empty⟩
      obtain rfl : words = words' := by simpa [ok] using ok'
      simpa [Function.comp_def] using whole
    · refine ⟨fun words ok => by simp [failed] at ok, fun empty => ?_⟩
      rw [failed, Except.error.injEq] at empty
      exact absurd empty (unfinished.ne_empty _)
  · rcases split_cases c.helper with ⟨-, empty⟩ | ⟨_, -, -, ok⟩ |
      ⟨front, rest, error, leads, unfinished, same, failed⟩
    · simp [empty] at backslash
    · simp [ok] at backslash
    · rw [failed, Except.error.injEq] at backslash
      cases unfinished with
      | backslash => exact split_of_backslash uid pid leads same
      | single | double => cases backslash
  · rcases split_cases c.helper with ⟨-, empty⟩ | ⟨_, -, -, ok⟩ |
      ⟨front, rest, error, leads, unfinished, same, failed'⟩
    · exact absurd (Except.error.inj (empty.symm.trans failed)).symm notEmpty
    · simp [ok] at failed
    · obtain rfl := Except.error.inj (failed.symm.trans failed')
      refine split_of_unclosed uid pid leads unfinished ?_ same
      rintro rfl
      cases unfinished
      exact notBackslash rfl

theorem split_helperCommand_commented : Line.IsCommented "h #".toList ∧
    split ((⟨"h #"⟩ : Config).helperCommand 0 1) = .ok ["h"] := by
  have commented : Line.IsCommented "h #".toList :=
    ⟨[.word ⟨.plain 'h', []⟩, .blank ' ', .comment []], by simp [Line.IsProper, Line.Follows,
      Word.IsProper, Segment.IsProper], ⟨[], rfl⟩, rfl⟩
  exact ⟨commented, ((split_helperCommand ⟨"h #"⟩ 0 1).1 commented).trans rfl⟩

/-- Neither does every helper get the identity, nor is every malformed or empty line refused. -/
theorem not_split_append_identity :
    (¬∀ (helper : String) (uid pid : UInt32) (words : List String), split helper = .ok words →
      split (Config.helperCommand ⟨helper⟩ uid pid) = .ok (words ++ identity uid pid)) ∧
    ¬∀ (helper : String) (uid pid : UInt32) (e : SplitError), split helper = .error e →
      ∃ e', split (Config.helperCommand ⟨helper⟩ uid pid) = .error e' := by
  constructor
  · intro always
    have added : split (Config.helperCommand ⟨"h #"⟩ 4294967295 1) =
        .ok (["h"] ++ identity 4294967295 1) := always "h #" 4294967295 1 ["h"] rfl
    have swallowed : split (Config.helperCommand ⟨"h #"⟩ 4294967295 1) = .ok ["h"] := rfl
    have lengths := congrArg List.length (Except.ok.inj (swallowed.symm.trans added))
    cases lengths
  · intro always
    have run : split (Config.helperCommand ⟨""⟩ 4294967295 1) = .ok (identity 4294967295 1) := rfl
    obtain ⟨e, refused⟩ := always "" 4294967295 1 .empty rfl
    cases run.symm.trans refused

end Config

end LoginSession

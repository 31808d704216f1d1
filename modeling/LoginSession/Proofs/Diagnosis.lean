import LoginSession.Proofs.Splitting

namespace LoginSession.CommandLine

open String (utf8Len)

def endingBackslashes (cs : List Char) : Nat := (cs.reverse.takeWhile (· = '\\')).length

theorem endingBackslashes_concat (cs : List Char) (c : Char) :
    endingBackslashes (cs ++ [c]) = if c = '\\' then endingBackslashes cs + 1 else 0 := by
  by_cases backslash : c = '\\' <;> simp [endingBackslashes, backslash]

namespace Line

/-- No double quote in a text closes the one before it: backslashes escape each other in pairs, and
one is left over for each quote. -/
def IsUnclosed (inside : List Char) : Prop :=
  ∀ before after, inside = before ++ '"' :: after → endingBackslashes before % 2 = 1

/-- A quote stands at a byte of a text, outside quotes, comments and escapes. -/
def OpensAt (cs : List Char) (position : Nat) (quote : Char) (inside : List Char) : Prop :=
  ∃ front, Leads front ∧ cs = front ++ quote :: inside ∧ position = utf8Len front

/-- What each answer says of a text. -/
def Warrants (cs : List Char) : Except SplitError (List String) → Prop
  | .ok words => words ≠ [] ∧ Derives cs (words.map String.toList)
  | .error .empty => Derives cs []
  | .error .trailingBackslash => ∃ front, Leads front ∧ cs = front ++ ['\\']
  | .error (.unterminatedSingleQuote p) => ∃ inside, OpensAt cs p '\'' inside ∧ '\'' ∉ inside
  | .error (.unterminatedDoubleQuote p) => ∃ inside, OpensAt cs p '"' inside ∧ IsUnclosed inside

section

variable {p : DoublePiece} {pieces : List DoublePiece} {start before after last : List Char}

theorem endingBackslashes_piece (proper : p.IsProper) (even : endingBackslashes start % 2 = 0) :
    endingBackslashes (start ++ p.text) % 2 = 0 := by
  cases p with
  | plain c =>
    have notBackslash : c ≠ '\\' := by
      rintro rfl
      simp [DoublePiece.IsProper] at proper
    rw [DoublePiece.text, endingBackslashes_concat, if_neg notBackslash]
  | escape c =>
    have two : start ++ ['\\', c] = (start ++ ['\\']) ++ [c] := by simp
    rw [DoublePiece.text, two, endingBackslashes_concat, endingBackslashes_concat, if_pos rfl]
    split <;> omega

theorem endingBackslashes_pieces (proper : ∀ p ∈ pieces, p.IsProper)
    (even : endingBackslashes start % 2 = 0) :
    endingBackslashes (start ++ pieces.flatMap (·.text)) % 2 = 0 := by
  induction pieces generalizing start with
  | nil => simpa using even
  | cons p pieces ih =>
    rw [List.forall_mem_cons] at proper
    rw [List.flatMap_cons, ← List.append_assoc]
    exact ih proper.2 (endingBackslashes_piece proper.1 even)

theorem endingBackslashes_quote (proper : p.IsProper) (even : endingBackslashes start % 2 = 0)
    (quote : p.text = before ++ '"' :: after) : endingBackslashes (start ++ before) % 2 = 1 := by
  cases p with
  | plain c =>
    obtain ⟨rfl, rfl, -⟩ : before = [] ∧ '"' = c ∧ after = [] := by
      simpa [DoublePiece.text, List.singleton_eq_append_iff] using quote
    simp [DoublePiece.IsProper] at proper
  | escape c =>
    cases before with
    | nil => simp [DoublePiece.text] at quote
    | cons d before =>
      obtain ⟨rfl, rfl⟩ : '\\' = d ∧ before = [] := by
        simp [DoublePiece.text, List.singleton_eq_append_iff] at quote
        exact ⟨quote.1, quote.2.1⟩
      rw [endingBackslashes_concat, if_pos rfl]
      omega

theorem isUnclosed_of_pieces (proper : ∀ p ∈ pieces, p.IsProper)
    (atEnd : last = [] ∨ last = ['\\']) : IsUnclosed (pieces.flatMap (·.text) ++ last) := by
  suffices escaped : ∀ start, endingBackslashes start % 2 = 0 → ∀ before after,
      pieces.flatMap (·.text) ++ last = before ++ '"' :: after →
        endingBackslashes (start ++ before) % 2 = 1 from escaped [] rfl
  induction pieces with
  | nil =>
    intro start _ before after same
    have member : '"' ∈ last := by
      rw [List.flatMap_nil, List.nil_append] at same
      simp [same]
    rcases atEnd with rfl | rfl <;> simp at member
  | cons p pieces ih =>
    intro start even before after same
    rw [List.forall_mem_cons] at proper
    have next := ih proper.2 _ (endingBackslashes_piece proper.1 even)
    rw [List.flatMap_cons, List.append_assoc, List.append_eq_append_iff] at same
    rcases same with ⟨later, rfl, same⟩ | ⟨inside, piece, same⟩
    · rw [← List.append_assoc]
      exact next later after same
    · cases inside with
      | nil =>
        rw [List.append_nil] at piece
        have here := next [] after same.symm
        rwa [List.append_nil, piece] at here
      | cons d inside =>
        obtain ⟨rfl, -⟩ := List.cons.inj same
        exact endingBackslashes_quote proper.1 even piece

theorem isUnclosed_iff {inside : List Char} : IsUnclosed inside ↔
    ∃ (pieces : List DoublePiece) (last : List Char), (∀ p ∈ pieces, p.IsProper) ∧
      (last = [] ∨ last = ['\\']) ∧ inside = pieces.flatMap (·.text) ++ last := by
  constructor
  · intro unclosed
    obtain ⟨pieces, proper, ⟨after, same⟩ | ⟨last, atEnd, same⟩⟩ := exists_pieces inside
    · have odd := unclosed _ after same
      have even := @endingBackslashes_pieces pieces [] proper rfl
      rw [List.nil_append] at even
      omega
    · exact ⟨pieces, last, proper, atEnd, same⟩
  · rintro ⟨pieces, last, proper, atEnd, rfl⟩
    exact isUnclosed_of_pieces proper atEnd

end

theorem Unfinished.warrants {cs front rest : List Char} {error : Nat → SplitError}
    (unfinished : Unfinished rest error) (leads : Leads front) (same : cs = front ++ rest) :
    Warrants cs (.error (error (utf8Len front))) := by
  subst same
  cases unfinished with
  | backslash => exact ⟨front, leads, rfl⟩
  | @single inside unclosed => exact ⟨inside, ⟨front, leads, rfl, rfl⟩, unclosed⟩
  | @double pieces last proper atEnd =>
    exact ⟨_, ⟨front, leads, rfl, rfl⟩, isUnclosed_iff.2 ⟨pieces, last, proper, atEnd, rfl⟩⟩

theorem leads_iff {cs : List Char} :
    Leads cs ↔ (scan cs).mode = .gap ∨ (scan cs).mode = .word := by
  constructor
  · rintro ⟨items, proper, noComment, rfl⟩
    obtain ⟨wordOpen, between⟩ := (Scanner.Between.start.read_line proper).2.1 noComment
    have mode : (scan (text items)).mode = .between wordOpen := between.mode
    cases wordOpen with
    | false => exact .inl mode
    | true => exact .inr mode
  · intro mode
    rcases derives_or_unfinished cs with ⟨values, items, proper, rfl, -⟩ |
      ⟨front, rest, error, leads, unfinished, rfl⟩
    · refine ⟨items, proper, fun ends => ?_, rfl⟩
      have commented : (scan (text items)).mode = .comment :=
        (Scanner.Between.start.read_line proper).2.2 ends
      rw [commented] at mode
      simp at mode
    · have failed := Scanner.finish_of_unfinished leads unfinished
      rcases mode with mode | mode <;> simp [Scanner.finish, mode] at failed

end Line

section

variable {command : String}

theorem warrants_split (command : String) : Line.Warrants command.toList (split command) := by
  rcases split_cases command with ⟨derives, empty⟩ | ⟨words, nonempty, derives, ok⟩ |
    ⟨front, rest, error, leads, unfinished, same, failed⟩
  · rw [empty]
    exact derives
  · rw [ok]
    exact ⟨nonempty, derives⟩
  · rw [failed, String.utf8ByteSize_ofList]
    exact unfinished.warrants leads same

theorem split_of_warrants {answer : Except SplitError (List String)}
    (warrants : Line.Warrants command.toList answer) : split command = answer := by
  match answer with
  | .ok words =>
    obtain ⟨nonempty, derives⟩ := warrants
    rw [split_of_derives derives, if_neg (by simpa using nonempty)]
    simp [Function.comp_def]
  | .error .empty =>
    rw [split_of_derives warrants, if_pos rfl]
  | .error .trailingBackslash =>
    obtain ⟨front, leads, same⟩ := warrants
    exact split_of_unfinished leads .backslash same
  | .error (.unterminatedSingleQuote p) =>
    obtain ⟨inside, ⟨front, leads, same, rfl⟩, unclosed⟩ := warrants
    rw [split_of_unfinished leads (.single unclosed) same, String.utf8ByteSize_ofList]
  | .error (.unterminatedDoubleQuote p) =>
    obtain ⟨inside, ⟨front, leads, same, rfl⟩, unclosed⟩ := warrants
    obtain ⟨pieces, last, proper, atEnd, rfl⟩ := Line.isUnclosed_iff.1 unclosed
    rw [split_of_unfinished leads (.double proper atEnd) same, String.utf8ByteSize_ofList]

theorem get_of_opensAt {position : Nat} {quote : Char} {inside : List Char}
    (opens : Line.OpensAt command.toList position quote inside) :
    String.Pos.Raw.IsValid command ⟨position⟩ ∧ String.Pos.Raw.get command ⟨position⟩ = quote := by
  obtain ⟨front, -, same, rfl⟩ := opens
  have whole : command = String.ofList (front ++ quote :: inside) := by
    rw [← same, String.ofList_toList]
  rw [whole]
  refine ⟨String.Pos.Raw.isValid_ofList.2 ⟨front.length, ?_⟩, ?_⟩
  · rw [List.take_left, String.utf8ByteSize_ofList]
  · rw [String.get_of_valid, List.headD_cons]

end

/-- Every command gets the one answer that its text calls for. The position of a quote is that of
the byte at which it begins, and only quotes, comments and escapes before it can hide it. -/
theorem split_diagnosis (command : String) :
    (∀ answer, split command = answer ↔ Line.Warrants command.toList answer) ∧
    (∃! answer, Line.Warrants command.toList answer) ∧
    (∀ position quote inside, Line.OpensAt command.toList position quote inside →
      String.Pos.Raw.IsValid command ⟨position⟩ ∧
        String.Pos.Raw.get command ⟨position⟩ = quote) ∧
    ∀ front, Line.Leads front ↔ (scan front).mode = .gap ∨ (scan front).mode = .word := by
  refine ⟨fun answer => ⟨?_, split_of_warrants⟩, ?_, fun _ _ _ => get_of_opensAt,
    fun _ => Line.leads_iff⟩
  · rintro rfl
    exact warrants_split command
  · exact ⟨split command, warrants_split command, fun _ other => (split_of_warrants other).symm⟩

example : split "é \"a\\" = .error (.unterminatedDoubleQuote 3) := rfl

end LoginSession.CommandLine

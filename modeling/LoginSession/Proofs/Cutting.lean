import LoginSession.Text.Cut
import Mathlib.Data.List.Infix

namespace LoginSession.Text

variable {separator : Char} {cs piece : List Char}

theorem pieces_append (separator : Char) (cs rest : List Char) :
    pieces separator (cs ++ separator :: rest) = pieces separator cs ++ pieces separator rest := by
  induction cs with
  | nil =>
    obtain ⟨first, more, cut⟩ := exists_pieces_eq_cons separator rest
    rw [List.nil_append, pieces_cons, cut, addToPieces_cons, if_pos rfl]
    rfl
  | cons c cs ih =>
    obtain ⟨first, more, cut⟩ := exists_pieces_eq_cons separator cs
    rw [List.cons_append, pieces_cons, ih, pieces_cons, cut, List.cons_append, addToPieces_cons,
      addToPieces_cons]
    by_cases same : c = separator
    · rw [if_pos same, if_pos same]
      rfl
    · rw [if_neg same, if_neg same]
      rfl

theorem pieces_of_not_mem (absent : separator ∉ cs) : pieces separator cs = [cs] := by
  induction cs with
  | nil => rfl
  | cons c cs ih =>
    rw [List.mem_cons, not_or] at absent
    rw [pieces_cons, ih absent.2, addToPieces_cons, if_neg (Ne.symm absent.1)]

theorem not_mem_of_mem_pieces (member : piece ∈ pieces separator cs) : separator ∉ piece := by
  induction cs generalizing piece with
  | nil =>
    rw [pieces, List.foldr_nil, List.mem_singleton] at member
    rw [member]
    exact List.not_mem_nil
  | cons c cs ih =>
    obtain ⟨first, more, cut⟩ := exists_pieces_eq_cons separator cs
    rw [pieces_cons, cut, addToPieces_cons] at member
    rw [cut] at ih
    by_cases same : c = separator
    · rw [if_pos same] at member
      rcases List.mem_cons.1 member with rfl | old
      · exact List.not_mem_nil
      · exact ih old
    · rw [if_neg same] at member
      rcases List.mem_cons.1 member with rfl | old
      · rw [List.mem_cons, not_or]
        exact ⟨Ne.symm same, ih List.mem_cons_self⟩
      · exact ih (List.mem_cons_of_mem _ old)

theorem pieces_eq_singleton_iff : (pieces separator cs).length = 1 ↔ separator ∉ cs := by
  constructor
  · intro single
    obtain ⟨piece, cut⟩ := List.length_eq_one_iff.1 single
    have whole := joinPieces_pieces separator cs
    rw [cut, joinPieces] at whole
    rw [← whole]
    exact not_mem_of_mem_pieces (cut ▸ List.mem_singleton_self piece)
  · intro absent
    rw [pieces_of_not_mem absent, List.length_singleton]

def endLines (texts : List (List Char)) : List Char := texts.flatMap fun text => text ++ ['\n']

theorem lines_endLines (texts : List (List Char)) :
    lines (endLines texts) = texts.flatMap lines ++ [[]] := by
  induction texts with
  | nil => rfl
  | cons text texts ih =>
    have split : endLines (text :: texts) = text ++ '\n' :: endLines texts := by simp [endLines]
    rw [split, lines, pieces_append, ← lines, ← lines, ih]
    simp

section

variable {separator before after start : List Char}

theorem prefix_append_separator (nonempty : before ≠ []) :
    separator <+: before ++ separator ++ after ↔
      separator <+: before ++ separator.dropLast := by
  have inside : before ++ separator.dropLast <+: before ++ separator ++ after :=
    ((List.prefix_append_right_inj before).2 (List.dropLast_prefix separator)).trans
      (List.prefix_append _ _)
  constructor
  · intro occurs
    refine List.prefix_of_prefix_length_le occurs inside ?_
    have := List.length_pos_iff.2 nonempty
    rw [List.length_append, List.length_dropLast]
    omega
  · exact fun occurs => occurs.trans inside

theorem cutFrom_append_iff (nonempty : separator ≠ []) :
    cutFrom separator start (before ++ separator ++ after) =
        some (start.reverse ++ before, after) ↔
      ¬separator <:+: before ++ separator.dropLast := by
  induction before generalizing start with
  | nil =>
    have short : ¬separator <:+: separator.dropLast := by
      intro occurs
      have := occurs.length_le
      have := List.length_pos_iff.2 nonempty
      rw [List.length_dropLast] at *
      omega
    obtain ⟨c, rest, rfl⟩ := List.exists_cons_of_ne_nil nonempty
    have here : (c :: rest).isPrefixOf (c :: (rest ++ after)) = true :=
      List.isPrefixOf_iff_prefix.2 (List.prefix_append (c :: rest) after)
    simp [cutFrom, here, short]
  | cons c before ih =>
    have occurrence : separator <+: c :: (before ++ separator ++ after) ↔
        separator <+: c :: (before ++ separator.dropLast) :=
      prefix_append_separator (List.cons_ne_nil c before)
    have whole : start.reverse ++ c :: before = (c :: start).reverse ++ before := by simp
    rw [List.cons_append, List.cons_append, List.cons_append, List.infix_cons_iff, not_or, cutFrom,
      ← occurrence]
    by_cases early : separator <+: c :: (before ++ separator ++ after)
    · rw [if_pos (List.isPrefixOf_iff_prefix.2 early)]
      refine ⟨fun found => ?_, fun absent => absurd early absent.1⟩
      simp at found
    · rw [if_neg (mt List.isPrefixOf_iff_prefix.1 early), whole, ih]
      exact ⟨fun absent => ⟨early, absent⟩, And.right⟩

/-- A separator that was put between two texts is found there if it does not occur before. -/
theorem cutAt?_append_iff (nonempty : separator ≠ []) :
    cutAt? separator (before ++ separator ++ after) = some (before, after) ↔
      ¬separator <:+: before ++ separator.dropLast := by
  have found := @cutFrom_append_iff separator before after [] nonempty
  rwa [List.reverse_nil, List.nil_append] at found

theorem cutFrom_eq_none_iff : cutFrom separator start cs = none ↔ ¬separator <:+: cs := by
  induction cs generalizing start with
  | nil => simp [cutFrom, List.infix_nil]
  | cons c cs ih =>
    rw [cutFrom, List.infix_cons_iff, not_or]
    by_cases here : separator.isPrefixOf (c :: cs) = true
    · have early : separator <+: c :: cs := List.isPrefixOf_iff_prefix.1 here
      rw [if_pos here]
      constructor
      · intro found
        cases found
      · exact fun absent => absurd early absent.1
    · rw [if_neg here, ih, and_iff_right (mt List.isPrefixOf_iff_prefix.2 here)]

theorem cutAt?_eq_none_iff : cutAt? separator cs = none ↔ ¬separator <:+: cs :=
  cutFrom_eq_none_iff

end

end LoginSession.Text

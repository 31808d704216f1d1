namespace LoginSession.Text

def cutFrom (separator before : List Char) : List Char → Option (List Char × List Char)
  | [] => if separator.isEmpty then some (before.reverse, []) else none
  | c :: cs =>
    if separator.isPrefixOf (c :: cs) then
      some (before.reverse, (c :: cs).drop separator.length)
    else cutFrom separator (c :: before) cs

def cutAt? (separator cs : List Char) : Option (List Char × List Char) := cutFrom separator [] cs

def addToPieces (separator c : Char) : List (List Char) → List (List Char)
  | [] => [[c]]
  | piece :: rest => if c = separator then [] :: piece :: rest else (c :: piece) :: rest

/-- The text between the separators; never empty, since the empty text has one empty piece. -/
def pieces (separator : Char) (cs : List Char) : List (List Char) :=
  cs.foldr (addToPieces separator) [[]]

def lines (cs : List Char) : List (List Char) := pieces '\n' cs

def joinPieces (separator : Char) : List (List Char) → List Char
  | [] => []
  | [piece] => piece
  | piece :: rest => piece ++ separator :: joinPieces separator rest

theorem cutFrom_eq {separator cs start before after : List Char}
    (h : cutFrom separator start cs = some (before, after)) :
    start.reverse ++ cs = before ++ separator ++ after := by
  induction cs generalizing start with
  | nil =>
    rw [cutFrom] at h
    by_cases empty : separator.isEmpty = true
    · rw [if_pos empty] at h
      cases h
      rw [List.isEmpty_iff.1 empty, List.append_nil, List.append_nil]
    · rw [if_neg empty] at h
      cases h
  | cons c cs ih =>
    rw [cutFrom] at h
    by_cases here : separator.isPrefixOf (c :: cs) = true
    · rw [if_pos here] at h
      cases h
      obtain ⟨rest, split⟩ := List.isPrefixOf_iff_prefix.1 here
      rw [← split, List.drop_left, List.append_assoc]
    · rw [if_neg here] at h
      have moved := ih h
      rwa [List.reverse_cons, List.append_assoc, List.singleton_append] at moved

theorem cutAt?_eq {separator cs before after : List Char}
    (h : cutAt? separator cs = some (before, after)) : cs = before ++ separator ++ after := by
  simpa using cutFrom_eq h

theorem pieces_cons (separator c : Char) (cs : List Char) :
    pieces separator (c :: cs) = addToPieces separator c (pieces separator cs) := rfl

theorem addToPieces_cons (separator c : Char) (piece : List Char) (rest : List (List Char)) :
    addToPieces separator c (piece :: rest) =
      if c = separator then [] :: piece :: rest else (c :: piece) :: rest := rfl

theorem addToPieces_ne_nil (separator c : Char) (ps : List (List Char)) :
    addToPieces separator c ps ≠ [] := by
  cases ps with
  | nil => exact List.cons_ne_nil _ _
  | cons piece rest =>
    rw [addToPieces_cons]
    split
    · exact List.cons_ne_nil _ _
    · exact List.cons_ne_nil _ _

theorem pieces_ne_nil (separator : Char) (cs : List Char) : pieces separator cs ≠ [] := by
  cases cs with
  | nil => exact List.cons_ne_nil _ _
  | cons c cs => exact addToPieces_ne_nil separator c (pieces separator cs)

theorem exists_pieces_eq_cons (separator : Char) (cs : List Char) :
    ∃ piece rest, pieces separator cs = piece :: rest :=
  List.exists_cons_of_ne_nil (pieces_ne_nil separator cs)

theorem joinPieces_addToPieces (separator c : Char) {ps : List (List Char)} (nonempty : ps ≠ []) :
    joinPieces separator (addToPieces separator c ps) = c :: joinPieces separator ps := by
  obtain ⟨piece, rest, rfl⟩ := List.exists_cons_of_ne_nil nonempty
  rw [addToPieces_cons]
  by_cases ends : c = separator
  · rw [if_pos ends, ends, joinPieces, List.nil_append]
    exact List.cons_ne_nil _ _
  · rw [if_neg ends]
    cases rest with
    | nil => rfl
    | cons next rest => rfl

theorem joinPieces_pieces (separator : Char) (cs : List Char) :
    joinPieces separator (pieces separator cs) = cs := by
  induction cs with
  | nil => rfl
  | cons c cs ih =>
    rw [pieces_cons, joinPieces_addToPieces separator c (pieces_ne_nil separator cs), ih]

end LoginSession.Text

import LoginSession.Job.Capture

namespace LoginSession

def cutLines : List UInt8 → List (List UInt8)
  | [] => []
  | b :: bytes =>
    if b = 10 then [b] :: cutLines bytes
    else
      match cutLines bytes with
      | [] => [[b]]
      | line :: lines => (b :: line) :: lines

def decodeLines (bytes : List UInt8) : String := String.join ((cutLines bytes).map Capture.decode)

def EndsLine (bytes : List UInt8) : Prop := bytes = [] ∨ bytes.getLast? = some 10

theorem cutLines_ne_nil {bytes : List UInt8} (h : bytes ≠ []) : cutLines bytes ≠ [] := by
  cases bytes with
  | nil => exact absurd rfl h
  | cons b bytes =>
    simp only [cutLines]
    split
    · simp
    · split <;> simp

theorem cutLines_append {a : List UInt8} (h : EndsLine a) (b : List UInt8) :
    cutLines (a ++ b) = cutLines a ++ cutLines b := by
  induction a with
  | nil => rfl
  | cons x a ih =>
    simp only [List.cons_append, cutLines]
    by_cases newline : x = 10
    · have rest : EndsLine a := by
        cases a with
        | nil => exact .inl rfl
        | cons y a => exact .inr (by simpa [EndsLine] using h)
      rw [if_pos newline, if_pos newline, ih rest, List.cons_append]
    · have more : a ≠ [] := by
        rintro rfl
        simp [EndsLine, newline] at h
      have rest : EndsLine a := by
        obtain ⟨y, a, rfl⟩ := List.exists_cons_of_ne_nil more
        exact .inr (by simpa [EndsLine] using h)
      obtain ⟨line, lines, cut⟩ := List.exists_cons_of_ne_nil (cutLines_ne_nil more)
      rw [if_neg newline, if_neg newline, ih rest, cut]
      rfl

theorem cutLines_of_not_mem {line : List UInt8} (h : 10 ∉ line) (nonempty : line ≠ []) :
    cutLines line = [line] := by
  induction line with
  | nil => exact absurd rfl nonempty
  | cons b line ih =>
    rw [List.mem_cons, not_or] at h
    rw [cutLines, if_neg (Ne.symm h.1)]
    cases line with
    | nil => rfl
    | cons c line => rw [ih h.2 (by simp)]

theorem cutLines_line {line : List UInt8} (h : 10 ∉ line) :
    cutLines (line ++ [10]) = [line ++ [10]] := by
  induction line with
  | nil => rfl
  | cons b line ih =>
    rw [List.mem_cons, not_or] at h
    rw [List.cons_append, cutLines, if_neg (Ne.symm h.1), ih h.2]

theorem decodeLines_append {a : List UInt8} (h : EndsLine a) (b : List UInt8) :
    decodeLines (a ++ b) = decodeLines a ++ decodeLines b := by
  rw [decodeLines, cutLines_append h, List.map_append, String.join_append, decodeLines, decodeLines]

theorem decodeLines_of_not_mem {line : List UInt8} (h : 10 ∉ line) :
    decodeLines line = Capture.decode line := by
  by_cases empty : line = []
  · subst empty
    rfl
  · simp [decodeLines, cutLines_of_not_mem h empty]

theorem decodeLines_line {line : List UInt8} (h : 10 ∉ line) :
    decodeLines (line ++ [10]) = Capture.decode (line ++ [10]) := by
  simp [decodeLines, cutLines_line h]

namespace Capture

/-- A capture that has taken these bytes has decoded every line that ended in them. -/
inductive Holds (c : Capture) (bytes : List UInt8) : Prop where
  | intro (whole : List UInt8) (split : bytes = whole ++ c.line.reverse) (ends : EndsLine whole)
    (unfinished : 10 ∉ c.line) (text : c.text = decodeLines whole)

variable {c : Capture} {bytes : List UInt8}

theorem Holds.push (h : c.Holds bytes) (b : UInt8) : (c.push b).Holds (bytes ++ [b]) := by
  obtain ⟨whole, split, ends, unfinished, text⟩ := h
  unfold Capture.push
  dsimp only
  by_cases newline : b = 10
  · subst newline
    have line : 10 ∉ c.line.reverse := fun h => unfinished (List.mem_reverse.1 h)
    rw [if_pos rfl]
    refine ⟨bytes ++ [10], by simp [endRead], .inr (by simp), by simp [endRead], ?_⟩
    rw [split, List.append_assoc, decodeLines_append ends, decodeLines_line line, ← text]
    simp [endRead]
  · rw [if_neg newline]
    refine ⟨whole, by simp [split], ends, ?_, text⟩
    rw [List.mem_cons, not_or]
    exact ⟨Ne.symm newline, unfinished⟩

theorem Holds.feed (h : c.Holds bytes) (more : List UInt8) : (c.feed more).Holds (bytes ++ more) := by
  induction more generalizing c bytes with
  | nil => simpa [Capture.feed] using h
  | cons b more ih => simpa [Capture.feed] using ih (h.push b)

theorem Holds.giveUp (h : c.Holds bytes) : c.giveUp.Holds bytes := by
  obtain ⟨whole, split, ends, unfinished, text⟩ := h
  exact ⟨whole, split, ends, unfinished, text⟩

theorem Holds.text_endRead (h : c.Holds bytes) (r : ReadResult) :
    (c.endRead r).text = decodeLines bytes := by
  obtain ⟨whole, split, ends, unfinished, text⟩ := h
  have line : 10 ∉ c.line.reverse := fun h => unfinished (List.mem_reverse.1 h)
  rw [split, decodeLines_append ends, decodeLines_of_not_mem line, ← text]
  rfl

theorem exists_text_push (c : Capture) (b : UInt8) : ∃ more, (c.push b).text = c.text ++ more := by
  unfold push
  dsimp only
  split
  · exact ⟨_, rfl⟩
  · exact ⟨"", by simp⟩

theorem exists_text_feed (c : Capture) (bytes : List UInt8) :
    ∃ more, (c.feed bytes).text = c.text ++ more := by
  induction bytes generalizing c with
  | nil => exact ⟨"", by simp [feed]⟩
  | cons b bytes ih =>
    obtain ⟨first, hf⟩ := exists_text_push c b
    obtain ⟨rest, hr⟩ := ih (c.push b)
    refine ⟨first ++ rest, ?_⟩
    rw [← String.append_assoc, ← hf, ← hr]
    rfl

end Capture

end LoginSession

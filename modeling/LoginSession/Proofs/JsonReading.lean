import LoginSession.Json.Layout
import LoginSession.Json.Reader
import LoginSession.Proofs.Numerals
import Mathlib.Data.List.DropRight

namespace LoginSession.Json

def unitOf (c : Char) : Escape :=
  if c ∈ ['"', '\\', '\x08', '\t', '\n', '\x0c', '\r'] then .char c
  else if c.toNat < 0x20 then .unit c.toNat
  else .char c

theorem hexDigit?_hexDigit {n : Nat} (small : n < 16) : hexDigit? (hexDigit n) = some n := by
  have all : ∀ m < 16, hexDigit? (hexDigit m) = some m := by decide
  exact all n small

theorem readUnits_escapeChar (units : List Escape) (c : Char) (rest : List Char) :
    readUnits units (escapeChar c ++ rest) = readUnits (unitOf c :: units) rest := by
  by_cases short : c ∈ ['"', '\\', '\x08', '\t', '\n', '\x0c', '\r']
  · have unit : unitOf c = .char c := by rw [unitOf, if_pos short]
    rw [unit]
    simp only [List.mem_cons, List.not_mem_nil, or_false] at short
    rcases short with rfl | rfl | rfl | rfl | rfl | rfl | rfl <;> rfl
  · rw [unitOf, if_neg short]
    simp only [List.mem_cons, List.not_mem_nil, or_false, not_or] at short
    simp only [escapeChar, short, if_false]
    by_cases control : c.toNat < 0x20
    · have high := hexDigit?_hexDigit (n := c.toNat / 16) (by omega)
      have low := hexDigit?_hexDigit (n := c.toNat % 16) (by omega)
      have zero : hexDigit? '0' = some 0 := rfl
      have value : c.toNat / 16 * 16 + c.toNat % 16 = c.toNat := by omega
      rw [if_pos control, if_pos control]
      simp [readUnits, hex4?, zero, high, low, value]
    · rw [if_neg control, if_neg control, List.singleton_append, readUnits]
      · simp [short, control]
      · exact short.1
      · exact fun _ _ _ _ _ same => absurd same short.2.1
      · exact fun _ _ same => absurd same short.2.1

theorem readUnits_escaped (units : List Escape) (cs rest : List Char) :
    readUnits units (cs.flatMap escapeChar ++ '"' :: rest) =
      some (units.reverse ++ cs.map unitOf, rest) := by
  induction cs generalizing units with
  | nil => simp [readUnits]
  | cons c cs ih =>
    rw [List.flatMap_cons, List.append_assoc, readUnits_escapeChar, ih]
    simp

theorem joinUnits_unitOf (text : List Char) (c : Char) (units : List Escape) :
    joinUnits text (unitOf c :: units) = joinUnits (c :: text) units := by
  have char : ∀ d : Char, joinUnits text (.char d :: units) = joinUnits (d :: text) units := by
    intro d
    rw [joinUnits]
  rw [unitOf]
  split
  · exact char c
  · split
    · rename_i control
      have high : isHigh c.toNat = false := by
        simp [isHigh]
        omega
      have low : isLow c.toNat = false := by
        simp [isLow]
        omega
      have back : Char.ofNat c.toNat = c := Char.ofNat_toNat c
      cases units with
      | nil => simp [joinUnits, high, low, back]
      | cons next units => cases next <;> simp [joinUnits, high, low, back]
    · exact char c

theorem joinUnits_map_unitOf (text cs : List Char) :
    joinUnits text (cs.map unitOf) = some (text.reverse ++ cs) := by
  induction cs generalizing text with
  | nil => simp [joinUnits]
  | cons c cs ih =>
    rw [List.map_cons, joinUnits_unitOf, ih]
    simp

theorem readString_quoted (text : String) (rest : List Char) :
    readString (text.toList.flatMap escapeChar ++ '"' :: rest) = some (some text, rest) := by
  rw [readString, readUnits_escaped, List.reverse_nil, List.nil_append]
  simp [joinUnits_map_unitOf]

def EndsNumber (rest : List Char) : Prop :=
  ∀ c ∈ rest.head?, Text.isDigit c = false ∧ c ∉ ['.', 'e', 'E']

variable {rest : List Char}

theorem EndsNumber.readFraction_eq (ends : EndsNumber rest) :
    readFraction rest = some ([], rest) := by
  unfold readFraction
  split
  · have := (ends '.' rfl).2
    simp at this
  · rfl

theorem EndsNumber.readExponent_eq (ends : EndsNumber rest) :
    readExponent rest = some ([], rest) := by
  cases rest with
  | nil => rfl
  | cons c rest =>
    have other := (ends c rfl).2
    simp only [List.mem_cons, List.not_mem_nil, or_false, not_or] at other
    simp [readExponent, other]

theorem readUnsigned_toDigits {negative : Bool} {n : Nat} (signed : negative = true → n ≠ 0)
    (ends : EndsNumber rest) :
    readUnsigned negative (Nat.toDigits 10 n ++ rest) =
      some (.integer (if negative then -(n : Int) else n), rest) := by
  have stop : ∀ c ∈ rest.head?, Text.isDigit c = false := fun c first => (ends c first).1
  have noMinusZero : (negative && n == 0) = false := by
    cases negative with
    | false => rfl
    | true => simp [signed rfl]
  simp [readUnsigned, Text.takeWhile_toDigits n stop, Text.dropWhile_toDigits n stop,
    isWholePart_toDigits, ends.readFraction_eq, ends.readExponent_eq, natOfDigits_toDigits,
    noMinusZero, guard]

theorem exists_toString_cons (n : Int) :
    ∃ c cs, (toString n).toList = c :: cs ∧ (c = '-' ∨ Text.isDigit c = true) := by
  rw [Text.toList_toString]
  split
  · exact ⟨_, _, rfl, .inl rfl⟩
  · obtain ⟨c, digits, split⟩ := List.exists_cons_of_ne_nil
      (Nat.toDigits_ne_nil (n := n.natAbs) (b := 10))
    exact ⟨c, digits, split,
      .inr (Text.isDigit_of_mem_toDigits (n := n.natAbs) (split ▸ List.mem_cons_self))⟩

theorem readNumber_toString (n : Int) (ends : EndsNumber rest) :
    readNumber ((toString n).toList ++ rest) = some (.integer n, rest) := by
  rw [Text.toList_toString]
  by_cases negative : n < 0
  · have value : -(n.natAbs : Int) = n := by omega
    rw [if_pos negative, List.cons_append, readNumber,
      readUnsigned_toDigits (fun _ => by omega) ends, if_pos rfl, value]
  · have value : (n.natAbs : Int) = n := by omega
    obtain ⟨c, digits, split⟩ := List.exists_cons_of_ne_nil
      (Nat.toDigits_ne_nil (n := n.natAbs) (b := 10))
    have digit : Text.isDigit c = true :=
      Text.isDigit_of_mem_toDigits (n := n.natAbs) (split ▸ List.mem_cons_self)
    have read := @readUnsigned_toDigits rest false n.natAbs (by simp) ends
    rw [split, List.cons_append] at read
    rw [if_neg negative, split, List.cons_append, readNumber, read]
    · simp [value]
    · rintro _ same
      cases (List.cons.inj same).1
      simp [Text.isDigit] at digit

theorem readValue_of_number {c : Char} {cs : List Char} (fuel : Nat)
    (first : c = '-' ∨ Text.isDigit c = true) :
    readValue (fuel + 1) (c :: cs) = readNumber (c :: cs) := by
  rw [readValue]
  all_goals
    rintro _ same
    cases (List.cons.inj same).1
    simp [Text.isDigit] at first

variable {gap cs : List Char} {v : Json}

theorem skip_gap (isGap : IsGap gap) (cs : List Char) : skip (gap ++ cs) = skip cs :=
  List.dropWhile_append_of_pos isGap

theorem skip_cons {c : Char} (token : isSpace c = false) (cs : List Char) :
    skip (c :: cs) = c :: cs := by
  rw [skip, List.dropWhile_cons_of_neg (by simp [token])]

theorem skip_skip (cs : List Char) : skip (skip cs) = skip cs :=
  List.dropWhile_idempotent isSpace cs

theorem isBlank_of_isSpace {c : Char} (space : isSpace c = true) : Text.isBlank c = true := by
  simp only [isSpace, Bool.or_eq_true, decide_eq_true_eq] at space
  rcases space with ((rfl | rfl) | rfl) | rfl <;> decide

theorem endsNumber_gap (isGap : IsGap gap) (ends : EndsNumber rest) : EndsNumber (gap ++ rest) := by
  intro c first
  cases gap with
  | nil => exact ends c first
  | cons d gap =>
    cases Option.some.inj first
    have space := isGap c List.mem_cons_self
    simp only [isSpace, Bool.or_eq_true, decide_eq_true_eq] at space
    rcases space with ((rfl | rfl) | rfl) | rfl <;> decide

theorem endsNumber_closing {c : Char} (closes : c ∈ [',', ']', '\x7d']) (rest : List Char) :
    EndsNumber (c :: rest) := by
  intro d first
  cases Option.some.inj first
  simp only [List.mem_cons, List.not_mem_nil, or_false] at closes
  rcases closes with rfl | rfl | rfl <;> decide

theorem Layout.exists_cons (layout : Layout v cs) :
    ∃ c more, cs = c :: more ∧ isSpace c = false ∧ c ≠ ']' ∧ c ≠ '\x7d' := by
  -- so skipping blanks stops at it, and it cannot be taken for the end of what it stands in
  cases layout with
  | integer n =>
    obtain ⟨c, more, split, first⟩ := exists_toString_cons n
    refine ⟨c, more, split, ?_⟩
    rcases first with rfl | digit
    · decide
    · have blank := Text.isBlank_of_isDigit digit
      refine ⟨?_, ?_, ?_⟩
      · exact Bool.eq_false_iff.2 fun space => by simp [isBlank_of_isSpace space] at blank
      · rintro rfl
        simp [Text.isDigit] at digit
      · rintro rfl
        simp [Text.isDigit] at digit
  | string text => exact ⟨_, _, by rw [quote, String.toList_ofList]; rfl, by decide⟩
  | null | yes | no => exact ⟨_, _, rfl, by decide⟩
  | emptyArray _ | array _ | emptyObject _ | object _ => exact ⟨_, _, rfl, by decide⟩

/-- With so much fuel every layout is read to its end. -/
structure Reads (fuel : Nat) : Prop where
  value : ∀ {v cs rest}, Layout v cs → 2 * cs.length ≤ fuel → EndsNumber rest →
    readValue fuel (cs ++ rest) = some (v, rest)
  elements : ∀ {vs cs rest}, ElementsLayout vs cs → 2 * cs.length + 1 ≤ fuel →
    readElements fuel (cs ++ ']' :: rest) = some (vs, rest)
  members : ∀ {ms cs rest}, MembersLayout ms cs → 2 * cs.length + 1 ≤ fuel →
    readMembers fuel (cs ++ '\x7d' :: rest) = some (ms, rest)

theorem Reads.padded {fuel : Nat} (h : Reads fuel) {c : Char} (layout : PaddedLayout v cs)
    (enough : 2 * cs.length ≤ fuel) (closes : c ∈ [',', ']', '\x7d']) (rest : List Char) :
    ∃ after, IsGap after ∧ readValue fuel (skip (cs ++ c :: rest)) = some (v, after ++ c :: rest) := by
  obtain ⟨gapBefore, layout, gapAfter⟩ := layout
  rename_i before cs after
  refine ⟨after, gapAfter, ?_⟩
  obtain ⟨d, more, split, token, -⟩ := layout.exists_cons
  have start : skip (before ++ (cs ++ after) ++ c :: rest) = cs ++ (after ++ c :: rest) := by
    rw [List.append_assoc, skip_gap gapBefore, List.append_assoc, split, List.cons_append,
      skip_cons token]
  rw [start]
  refine h.value layout ?_ (endsNumber_gap gapAfter (endsNumber_closing closes rest))
  simp only [List.length_append] at enough
  omega

theorem Reads.elements_succ {fuel : Nat} (h : Reads fuel) {vs : List Json}
    (layout : ElementsLayout vs cs) (enough : 2 * cs.length ≤ fuel) :
    readElements (fuel + 1) (cs ++ ']' :: rest) = some (vs, rest) := by
  cases layout with
  | last padded =>
    obtain ⟨after, gapAfter, read⟩ := h.padded padded enough (c := ']') (by decide) rest
    rw [readElements, read]
    simp [skip_gap gapAfter, skip_cons (c := ']') rfl]
  | @cons v vs cs more padded elements =>
    rw [List.length_append, List.length_cons] at enough
    obtain ⟨after, gapAfter, read⟩ :=
      h.padded padded (c := ',') (by omega) (by decide) (more ++ ']' :: rest)
    have later : readElements fuel (more ++ ']' :: rest) = some (vs, rest) :=
      h.elements elements (by omega)
    rw [List.append_assoc, List.cons_append, readElements, read]
    simp [skip_gap gapAfter, skip_cons (c := ',') rfl, later]

theorem skip_quote {before : List Char} (gapBefore : IsGap before) (name : String)
    (rest : List Char) :
    skip (before ++ ((quote name).toList ++ rest)) =
      '"' :: (name.toList.flatMap escapeChar ++ '"' :: rest) := by
  rw [skip_gap gapBefore, quote, String.toList_ofList, List.cons_append, List.cons_append,
    skip_cons rfl, List.append_assoc, List.singleton_append]

theorem Reads.members_succ {fuel : Nat} (h : Reads fuel) {ms : List (Option String × Json)}
    (layout : MembersLayout ms cs) (enough : 2 * cs.length ≤ fuel) :
    readMembers (fuel + 1) (cs ++ '\x7d' :: rest) = some (ms, rest) := by
  cases layout with
  | @last name v before colon cs gapBefore gapColon padded =>
    simp only [List.length_append, List.length_cons] at enough
    obtain ⟨after, gapAfter, read⟩ :=
      h.padded padded (c := '\x7d') (by omega) (by decide) rest
    have start := skip_quote gapBefore name (colon ++ ':' :: (cs ++ '\x7d' :: rest))
    simp only [List.append_assoc, List.cons_append]
    rw [readMembers, start]
    simp [readString_quoted, skip_gap gapColon, skip_cons (c := ':') rfl, read, skip_gap gapAfter,
      skip_cons (c := '\x7d') rfl]
  | @cons name v ms before colon cs more gapBefore gapColon padded members =>
    simp only [List.length_append, List.length_cons] at enough
    obtain ⟨after, gapAfter, read⟩ :=
      h.padded padded (c := ',') (by omega) (by decide) (more ++ '\x7d' :: rest)
    have start := skip_quote gapBefore name (colon ++ ':' :: (cs ++ ',' :: (more ++ '\x7d' :: rest)))
    have later : readMembers fuel (more ++ '\x7d' :: rest) = some (ms, rest) :=
      h.members members (by omega)
    simp only [List.append_assoc, List.cons_append]
    rw [readMembers, start]
    simp [readString_quoted, skip_gap gapColon, skip_cons (c := ':') rfl, read, skip_gap gapAfter,
      skip_cons (c := ',') rfl, later]

theorem readElements_skip (fuel : Nat) (cs : List Char) :
    readElements fuel (skip cs) = readElements fuel cs := by
  cases fuel with
  | zero => rfl
  | succ fuel => rw [readElements, readElements, skip_skip]

theorem readMembers_skip (fuel : Nat) (cs : List Char) :
    readMembers fuel (skip cs) = readMembers fuel cs := by
  cases fuel with
  | zero => rfl
  | succ fuel => rw [readMembers, readMembers, skip_skip]

theorem PaddedLayout.exists_skip (layout : PaddedLayout v cs) (rest : List Char) :
    ∃ c more, skip (cs ++ rest) = c :: more ∧ c ≠ ']' := by
  obtain ⟨gapBefore, layout, gapAfter⟩ := layout
  rename_i before cs after
  obtain ⟨c, more, rfl, token, open', -⟩ := layout.exists_cons
  refine ⟨c, more ++ (after ++ rest), ?_, open'⟩
  rw [List.append_assoc, skip_gap gapBefore, List.append_assoc, List.cons_append, skip_cons token]

theorem ElementsLayout.exists_skip {vs : List Json} (layout : ElementsLayout vs cs)
    (rest : List Char) : ∃ c more, skip (cs ++ rest) = c :: more ∧ c ≠ ']' := by
  cases layout with
  | last padded => exact padded.exists_skip rest
  | cons padded elements =>
    rw [List.append_assoc]
    exact padded.exists_skip _

theorem MembersLayout.exists_skip {ms : List (Option String × Json)} (layout : MembersLayout ms cs)
    (rest : List Char) : ∃ more, skip (cs ++ rest) = '"' :: more := by
  cases layout with
  | last gapBefore _ _ | cons gapBefore _ _ _ =>
    simp only [List.append_assoc]
    exact ⟨_, skip_quote gapBefore _ _⟩

theorem readWord_append (word : String) (value : Json) (rest : List Char) :
    readWord word value (word.toList ++ rest) = some (value, rest) := by
  have here : word.toList.isPrefixOf (word.toList ++ rest) = true :=
    List.isPrefixOf_iff_prefix.2 (List.prefix_append _ rest)
  rw [readWord, if_pos here, ← String.length_toList, List.drop_left]

theorem Reads.value_succ {fuel : Nat} (h : Reads fuel) (layout : Layout v cs)
    (enough : 2 * cs.length ≤ fuel + 1) (ends : EndsNumber rest) :
    readValue (fuel + 1) (cs ++ rest) = some (v, rest) := by
  cases layout with
  | null => simpa [readValue] using readWord_append "null" .null rest
  | yes => simpa [readValue] using readWord_append "true" (.boolean true) rest
  | no => simpa [readValue] using readWord_append "false" (.boolean false) rest
  | integer n =>
    obtain ⟨c, more, split, first⟩ := exists_toString_cons n
    have read := readNumber_toString n ends
    rw [split, List.cons_append] at read
    rw [split, List.cons_append, readValue_of_number fuel first, read]
  | string text =>
    rw [quote, String.toList_ofList, List.cons_append, List.cons_append, List.append_assoc,
      List.singleton_append, readValue, readString_quoted]
    rfl
  | emptyArray isGap =>
    simp [readValue, skip_gap isGap, skip_cons (c := ']') rfl]
  | array elements =>
    rename_i vs cs
    simp only [List.length_cons, List.length_append, List.length_nil] at enough
    have read : readElements fuel (cs ++ ']' :: rest) = some (vs, rest) :=
      h.elements elements (by omega)
    obtain ⟨c, more, start, open'⟩ := elements.exists_skip (']' :: rest)
    rw [← readElements_skip, start] at read
    simp only [List.cons_append, List.append_assoc, List.nil_append, readValue, start]
    split
    · rename_i same
      exact absurd (List.cons.inj same).1 open'
    · rw [read]
      rfl
  | emptyObject isGap =>
    simp [readValue, skip_gap isGap, skip_cons (c := '\x7d') rfl]
  | object members =>
    rename_i ms cs
    simp only [List.length_cons, List.length_append, List.length_nil] at enough
    have read : readMembers fuel (cs ++ '\x7d' :: rest) = some (ms, rest) :=
      h.members members (by omega)
    obtain ⟨more, start⟩ := members.exists_skip ('\x7d' :: rest)
    rw [← readMembers_skip, start] at read
    simp [readValue, start, read]

theorem reads (fuel : Nat) : Reads fuel := by
  induction fuel with
  | zero =>
    refine ⟨fun layout enough _ => ?_, fun _ enough => ?_, fun _ enough => ?_⟩
    · obtain ⟨c, more, rfl, -⟩ := layout.exists_cons
      simp at enough
    · omega
    · omega
  | succ fuel ih =>
    -- elements and members get one unit more, for the bracket that they leave unread
    exact ⟨ih.value_succ, fun layout enough => ih.elements_succ layout (by omega),
      fun layout enough => ih.members_succ layout (by omega)⟩

/-- A text is read as every value that it lays out, so it lays out at most one. -/
theorem parse?_of_layout {text : String} {before after : List Char} (layout : Layout v cs)
    (gapBefore : IsGap before) (gapAfter : IsGap after)
    (whole : text.toList = before ++ (cs ++ after)) : parse? text = some v := by
  obtain ⟨c, more, split, token, -⟩ := layout.exists_cons
  have start : skip text.toList = cs ++ after := by
    rw [whole, skip_gap gapBefore, split, List.cons_append, skip_cons token]
  have ends : EndsNumber after := by
    have := @endsNumber_gap [] after gapAfter (by simp [EndsNumber])
    rwa [List.append_nil] at this
  have enough : 2 * cs.length ≤ 2 * (cs ++ after).length + 2 := by
    rw [List.length_append]
    omega
  have read := (reads _).value layout enough ends
  have blank : skip after = [] := by
    have := skip_gap gapAfter []
    rwa [List.append_nil] at this
  simp only [parse?, start, read, blank]
  rfl

end LoginSession.Json

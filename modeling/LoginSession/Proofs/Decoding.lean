import LoginSession.Text.Utf8
import Mathlib.Tactic.SplitIfs

namespace LoginSession.Text

open String (utf8EncodeChar)

/-- The encoding of some character starts with these bytes. -/
def BeginsChar (bytes : List UInt8) : Prop := ∃ c, bytes <+: utf8EncodeChar c

/-- What bytes are read as by the rules of Unicode alone: every encoded character as itself, every
longest run of bytes that begins a character and is none as one replacement, and every byte that
begins none as another. -/
inductive Decodes : List UInt8 → List Char → Prop where
  | nil : Decodes [] []
  | char {rest : List UInt8} {cs : List Char} (c : Char) (later : Decodes rest cs) :
    Decodes (utf8EncodeChar c ++ rest) (c :: cs)
  | truncated {run rest : List UInt8} {cs : List Char} (nonempty : run ≠ [])
    (begun : BeginsChar run) (incomplete : ∀ c, run ≠ utf8EncodeChar c)
    (longest : ∀ b ∈ rest.head?, ¬BeginsChar (run ++ [b])) (later : Decodes rest cs) :
    Decodes (run ++ rest) (replacement :: cs)
  | stray {b : UInt8} {rest : List UInt8} {cs : List Char} (none : ¬BeginsChar [b])
    (later : Decodes rest cs) : Decodes (b :: rest) (replacement :: cs)

section Existence

theorem exists_longest {run : List UInt8} (begun : BeginsChar run) (bytes : List UInt8) :
    ∃ more rest, bytes = more ++ rest ∧ BeginsChar (run ++ more) ∧
      ∀ b ∈ rest.head?, ¬BeginsChar (run ++ more ++ [b]) := by
  induction bytes generalizing run with
  | nil => exact ⟨[], [], rfl, by rwa [List.append_nil], by simp⟩
  | cons b bytes ih =>
    by_cases longer : BeginsChar (run ++ [b])
    · obtain ⟨more, rest, rfl, here, longest⟩ := ih longer
      exact ⟨b :: more, rest, rfl, by simpa using here, by simpa using longest⟩
    · refine ⟨[], b :: bytes, rfl, by rwa [List.append_nil], ?_⟩
      intro x first
      rw [List.head?_cons, Option.mem_some_iff] at first
      rwa [← first, List.append_nil]

theorem exists_decodes (bytes : List UInt8) : ∃ cs, Decodes bytes cs := by
  induction count : bytes.length using Nat.strongRecOn generalizing bytes with
  | ind n ih =>
    subst count
    cases bytes with
    | nil => exact ⟨[], .nil⟩
    | cons b bytes =>
      by_cases begun : BeginsChar [b]
      · obtain ⟨more, rest, rfl, here, longest⟩ := exists_longest begun bytes
        have shorter : rest.length < (b :: (more ++ rest)).length := by
          rw [List.length_cons, List.length_append]
          omega
        obtain ⟨cs, later⟩ := ih rest.length shorter rest rfl
        -- the run cannot go on, so either it is a character or it has been cut short
        by_cases whole : ∃ c, [b] ++ more = utf8EncodeChar c
        · obtain ⟨c, same⟩ := whole
          refine ⟨c :: cs, ?_⟩
          rw [← List.cons_append, ← List.singleton_append, same]
          exact .char c later
        · exact ⟨replacement :: cs, .truncated (by simp) here (not_exists.1 whole) longest later⟩
      · obtain ⟨cs, later⟩ := ih bytes.length (by simp) bytes rfl
        exact ⟨replacement :: cs, .stray begun later⟩

end Existence

section Encoding

/-- The well-formed sequences of bytes, each with the code point that it encodes. -/
def IsEncoding (n : Nat) : List UInt8 → Prop
  | [a] => a.toNat < 0x80 ∧ n = a.toNat
  | [a, b] => (0xc2 ≤ a.toNat ∧ a.toNat ≤ 0xdf) ∧ (0x80 ≤ b.toNat ∧ b.toNat ≤ 0xbf) ∧
    n = (a.toNat - 0xc0) * 64 + (b.toNat - 0x80)
  | [a, b, c] => (0xe0 ≤ a.toNat ∧ a.toNat ≤ 0xef) ∧ (0x80 ≤ b.toNat ∧ b.toNat ≤ 0xbf) ∧
    (a.toNat = 0xe0 → 0xa0 ≤ b.toNat) ∧ (a.toNat = 0xed → b.toNat ≤ 0x9f) ∧
    (0x80 ≤ c.toNat ∧ c.toNat ≤ 0xbf) ∧
    n = ((a.toNat - 0xe0) * 64 + (b.toNat - 0x80)) * 64 + (c.toNat - 0x80)
  | [a, b, c, d] => (0xf0 ≤ a.toNat ∧ a.toNat ≤ 0xf4) ∧ (0x80 ≤ b.toNat ∧ b.toNat ≤ 0xbf) ∧
    (a.toNat = 0xf0 → 0x90 ≤ b.toNat) ∧ (a.toNat = 0xf4 → b.toNat ≤ 0x8f) ∧
    (0x80 ≤ c.toNat ∧ c.toNat ≤ 0xbf) ∧ (0x80 ≤ d.toNat ∧ d.toNat ≤ 0xbf) ∧
    n = (((a.toNat - 0xf0) * 64 + (b.toNat - 0x80)) * 64 + (c.toNat - 0x80)) * 64 +
      (d.toNat - 0x80)
  | _ => False

theorem isEncoding_utf8EncodeChar (c : Char) : IsEncoding c.toNat (utf8EncodeChar c) := by
  have valid : c.toNat < 0xd800 ∨ 0xdfff < c.toNat ∧ c.toNat < 0x110000 := c.valid
  simp only [utf8EncodeChar, Char.toNat_val]
  split_ifs <;> simp only [IsEncoding, UInt8.toNat_ofNat'] <;> omega

theorem ofNat_eq_iff {k : Nat} {b : UInt8} : UInt8.ofNat k = b ↔ k % 256 = b.toNat := by
  rw [← UInt8.toNat_inj, UInt8.toNat_ofNat']

variable {n : Nat} {bytes : List UInt8}

theorem isValidChar_of_isEncoding (h : IsEncoding n bytes) : n.isValidChar := by
  simp only [Nat.isValidChar]
  unfold IsEncoding at h
  split at h
  iterate 4 omega
  exact h.elim

theorem exists_char_of_isEncoding (h : IsEncoding n bytes) :
    ∃ c : Char, c.toNat = n ∧ utf8EncodeChar c = bytes := by
  have value : (Char.ofNat n).val.toNat = n := by
    rw [Char.ofNat, dif_pos (isValidChar_of_isEncoding h)]
    rfl
  refine ⟨Char.ofNat n, value, ?_⟩
  simp only [utf8EncodeChar, value]
  unfold IsEncoding at h
  split at h
  · rw [if_pos (by omega)]
    simp only [List.cons.injEq, ofNat_eq_iff, and_true]
    omega
  · rw [if_neg (by omega), if_pos (by omega)]
    simp only [List.cons.injEq, ofNat_eq_iff, and_true]
    omega
  · rw [if_neg (by omega), if_neg (by omega), if_pos (by omega)]
    simp only [List.cons.injEq, ofNat_eq_iff, and_true]
    omega
  · rw [if_neg (by omega), if_neg (by omega), if_neg (by omega)]
    simp only [List.cons.injEq, ofNat_eq_iff, and_true]
    omega
  · exact h.elim

theorem beginsChar_of_isEncoding {rest : List UInt8} (h : IsEncoding n (bytes ++ rest)) :
    BeginsChar bytes := by
  obtain ⟨c, -, same⟩ := exists_char_of_isEncoding h
  exact ⟨c, same ▸ List.prefix_append bytes rest⟩

end Encoding

theorem least_continuation : (0x80 : UInt8) ≤ 0x80 := Std.le_refl _

def Owed.next (owed : Owed) (b : UInt8) : Owed where
  count := owed.count - 1
  low := 0x80
  high := 0xbf
  bits := owed.bits * 64 + (b.toNat - 0x80)
  continuation := least_continuation

/-- The bytes are all that is owed, and complete the character with this code point. -/
def Completes : Owed → List UInt8 → Nat → Prop
  | _, [], _ => False
  | owed, b :: bytes, n => (owed.low ≤ b ∧ b ≤ owed.high) ∧
    if owed.count ≤ 1 then bytes = [] ∧ n = (owed.next b).bits
    else Completes (owed.next b) bytes n

section Completion

variable {owed : Owed} {b : UInt8} {bytes run : List UInt8} {n : Nat}

theorem not_completes_nil : ¬Completes owed [] n := id

theorem completes_cons_iff : Completes owed (b :: bytes) n ↔
    (owed.low.toNat ≤ b.toNat ∧ b.toNat ≤ owed.high.toNat) ∧
      if owed.count ≤ 1 then bytes = [] ∧ n = (owed.next b).bits
      else Completes (owed.next b) bytes n := by
  rw [Completes, UInt8.le_iff_toNat_le, UInt8.le_iff_toNat_le]

theorem exists_lead (low : 0xc2 ≤ b.toNat) (high : b.toNat ≤ 0xf4) :
    ∃ owed, Owed.ofLead b = some owed := by
  simp only [Owed.ofLead]
  split_ifs
  iterate 7 exact ⟨_, rfl⟩
  omega

theorem low_le_high (lead : Owed.ofLead b = some owed) : owed.low ≤ owed.high := by
  simp only [Owed.ofLead] at lead
  split_ifs at lead <;> cases lead <;> simp

theorem completes_iff (lead : Owed.ofLead b = some owed) :
    Completes owed bytes n ↔ IsEncoding n (b :: bytes) := by
  simp only [Owed.ofLead] at lead
  split_ifs at lead <;> cases lead <;>
    rcases bytes with _ | ⟨x, _ | ⟨y, _ | ⟨z, _ | ⟨w, rest⟩⟩⟩⟩ <;>
    simp [completes_cons_iff, not_completes_nil, IsEncoding, Owed.next] <;> omega

theorem ascii_or_lead (h : IsEncoding n (b :: bytes)) :
    (b.toNat < 0x80 ∧ bytes = [] ∧ n = b.toNat) ∨
      (¬b.toNat < 0x80 ∧ ∃ owed, Owed.ofLead b = some owed ∧ Completes owed bytes n) := by
  have first : (b.toNat < 0x80 ∧ bytes = [] ∧ n = b.toNat) ∨ 0xc2 ≤ b.toNat ∧ b.toNat ≤ 0xf4 := by
    rcases bytes with _ | ⟨x, _ | ⟨y, _ | ⟨z, _ | ⟨w, rest⟩⟩⟩⟩
    · exact .inl ⟨h.1, rfl, h.2⟩
    · exact .inr ⟨h.1.1, by have := h.1.2; omega⟩
    · exact .inr ⟨by have := h.1.1; omega, by have := h.1.2; omega⟩
    · exact .inr ⟨by have := h.1.1; omega, by have := h.1.2; omega⟩
    · exact h.elim
  refine first.imp_right fun range => ⟨by omega, ?_⟩
  obtain ⟨owed, lead⟩ := exists_lead range.1 range.2
  exact ⟨owed, lead, (completes_iff lead).2 h⟩

theorem exists_completes (low : owed.low ≤ b) (high : b ≤ owed.high) :
    ∃ bytes n, Completes owed (b :: bytes) n := by
  induction count : owed.count generalizing owed b with
  | zero => exact ⟨[], _, ⟨low, high⟩, by rw [if_pos (by omega)]; exact ⟨rfl, rfl⟩⟩
  | succ k ih =>
    by_cases last : owed.count ≤ 1
    · exact ⟨[], _, ⟨low, high⟩, by rw [if_pos last]; exact ⟨rfl, rfl⟩⟩
    · obtain ⟨bytes, n, rest⟩ := @ih (owed.next b) 0x80 (by simp [Owed.next]) (by simp [Owed.next])
        (by simp [Owed.next, count])
      exact ⟨0x80 :: bytes, n, ⟨low, high⟩, by rwa [if_neg last]⟩

end Completion

namespace Decoder

variable {owed : Owed} {b : UInt8} {bytes run rest : List UInt8} {n : Nat} {text : List Char}

theorem push_within (within : owed.low ≤ b ∧ b ≤ owed.high) :
    push ⟨some owed, text⟩ b =
      if owed.count ≤ 1 then ⟨none, Char.ofNat (owed.next b).bits :: text⟩
      else ⟨some (owed.next b), text⟩ := by
  rw [push]
  exact if_pos within

theorem push_beyond (beyond : ¬(owed.low ≤ b ∧ b ≤ owed.high)) :
    push ⟨some owed, text⟩ b = push ⟨none, replacement :: text⟩ b := by
  rw [push]
  exact if_neg beyond

theorem push_lead (high : ¬b.toNat < 0x80) (lead : Owed.ofLead b = some owed) :
    push ⟨none, text⟩ b = ⟨some owed, text⟩ := by
  simp only [push, start, if_neg high, lead]

theorem foldl_push_of_completes (h : Completes owed bytes n) :
    bytes.foldl push ⟨some owed, text⟩ = ⟨none, Char.ofNat n :: text⟩ := by
  induction bytes generalizing owed with
  | nil => exact (not_completes_nil h).elim
  | cons b bytes ih =>
    obtain ⟨within, rest⟩ := h
    rw [List.foldl_cons, push_within within]
    by_cases last : owed.count ≤ 1
    · rw [if_pos last] at rest ⊢
      rw [rest.1, rest.2, List.foldl_nil]
    · rw [if_neg last] at rest ⊢
      exact ih rest

theorem exists_waiting (text : List Char) (h : Completes owed (run ++ b :: bytes) n) :
    ∃ later, run.foldl push ⟨some owed, text⟩ = ⟨some later, text⟩ ∧
      ∀ more m, Completes later more m → Completes owed (run ++ more) m := by
  induction run generalizing owed with
  | nil => exact ⟨owed, rfl, fun _ _ => id⟩
  | cons x run ih =>
    obtain ⟨within, rest⟩ := h
    have unfinished : ¬owed.count ≤ 1 := by
      intro last
      rw [if_pos last] at rest
      simp at rest
    rw [if_neg unfinished] at rest
    obtain ⟨later, waits, completing⟩ := ih rest
    refine ⟨later, ?_, fun more m completes => ⟨within, ?_⟩⟩
    · rw [List.foldl_cons, push_within within, if_neg unfinished, waits]
    · rw [if_neg unfinished]
      exact completing more m completes

theorem foldl_push_encoded (c : Char) :
    (utf8EncodeChar c).foldl push ⟨none, text⟩ = ⟨none, c :: text⟩ := by
  have encoding := isEncoding_utf8EncodeChar c
  cases same : utf8EncodeChar c with
  | nil =>
    rw [same] at encoding
    exact encoding.elim
  | cons b bytes =>
    rw [same] at encoding
    rcases ascii_or_lead encoding with ⟨ascii, rfl, value⟩ | ⟨high, owed, lead, completes⟩
    · rw [List.foldl_cons, List.foldl_nil, push, start, if_pos ascii, ← value, Char.ofNat_toNat]
    · rw [List.foldl_cons, push_lead high lead, foldl_push_of_completes completes, Char.ofNat_toNat]

theorem push_stray (none : ¬BeginsChar [b]) :
    push ⟨.none, text⟩ b = ⟨.none, replacement :: text⟩ := by
  have high : ¬b.toNat < 0x80 := by
    intro ascii
    have encoding : IsEncoding b.toNat ([b] ++ []) := ⟨ascii, rfl⟩
    exact none (beginsChar_of_isEncoding encoding)
  have unknown : Owed.ofLead b = .none := by
    cases lead : Owed.ofLead b with
    | none => rfl
    | some owed =>
      obtain ⟨bytes, n, completes⟩ := exists_completes (Std.le_refl owed.low) (low_le_high lead)
      have encoding : IsEncoding n ([b] ++ owed.low :: bytes) := (completes_iff lead).1 completes
      exact absurd (beginsChar_of_isEncoding encoding) none
  simp only [push, start, if_neg high, unknown]

theorem finish_truncated (nonempty : run ≠ []) (begun : BeginsChar run)
    (incomplete : ∀ c, run ≠ utf8EncodeChar c)
    (longest : ∀ b ∈ rest.head?, ¬BeginsChar (run ++ [b])) :
    ((run ++ rest).foldl push ⟨none, text⟩).finish =
      (rest.foldl push ⟨none, replacement :: text⟩).finish := by
  obtain ⟨b, more, rfl⟩ := List.exists_cons_of_ne_nil nonempty
  obtain ⟨c, tail, whole⟩ := begun
  obtain ⟨x, tail, rfl⟩ : ∃ x xs, tail = x :: xs := by
    refine List.exists_cons_of_ne_nil ?_
    rintro rfl
    exact incomplete c (by rw [← whole, List.append_nil])
  have encoding := isEncoding_utf8EncodeChar c
  rw [← whole, List.cons_append] at encoding
  -- an ASCII byte would be the whole character, and `x` is still to come
  obtain ⟨-, none, -⟩ | ⟨high, owed, lead, completes⟩ := ascii_or_lead encoding
  · simp at none
  · obtain ⟨later, waits, completing⟩ := exists_waiting text completes
    rw [List.foldl_append, List.foldl_cons, push_lead high lead, waits]
    cases rest with
    | nil => rfl
    | cons y rest =>
      have beyond : ¬(later.low ≤ y ∧ y ≤ later.high) := by
        -- any byte within the bounds could be completed to a character, so the run would be longer
        rintro ⟨low, high⟩
        obtain ⟨bytes, n, completes⟩ := exists_completes low high
        have encoding := (completes_iff lead).1 (completing _ _ completes)
        have split : b :: (more ++ y :: bytes) = b :: more ++ [y] ++ bytes := by simp
        rw [split] at encoding
        exact longest y rfl (beginsChar_of_isEncoding encoding)
      rw [List.foldl_cons, push_beyond beyond, List.foldl_cons]

theorem finish_of_decodes {cs : List Char} (h : Decodes bytes cs) (text : List Char) :
    (bytes.foldl push ⟨none, text⟩).finish = text.reverse ++ cs := by
  induction h generalizing text with
  | nil => simp [finish]
  | char c later ih => simp [foldl_push_encoded, ih]
  | truncated nonempty begun incomplete longest later ih =>
    rw [finish_truncated nonempty begun incomplete longest, ih]
    simp
  | stray none later ih => simp [push_stray none, ih]

end Decoder

theorem decodes_iff {bytes : List UInt8} {cs : List Char} :
    Decodes bytes cs ↔ cs = decodeLossy bytes := by
  have sound : ∀ cs, Decodes bytes cs → cs = decodeLossy bytes := by
    intro cs decodes
    exact (Decoder.finish_of_decodes decodes []).symm
  refine ⟨sound cs, ?_⟩
  rintro rfl
  obtain ⟨cs, decodes⟩ := exists_decodes bytes
  exact sound cs decodes ▸ decodes

theorem decodeLossy_append_newline (bytes rest : List UInt8) :
    decodeLossy (bytes ++ 10 :: rest) = decodeLossy bytes ++ '\n' :: decodeLossy rest := by
  have later := Decoder.finish_of_decodes (decodes_iff.2 rfl : Decodes rest (decodeLossy rest))
    ('\n' :: (decodeLossy bytes).reverse)
  rw [List.reverse_cons, List.reverse_reverse, List.append_assoc, List.singleton_append] at later
  rw [← later, decodeLossy, List.foldl_append, List.foldl_cons, Decoder.push_newline]
  rfl

end LoginSession.Text

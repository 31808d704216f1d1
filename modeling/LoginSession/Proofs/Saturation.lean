import LoginSession.Proofs.Decoding
import LoginSession.Proofs.Numerals

namespace LoginSession.Text

open String (utf8EncodeChar)

variable {c : Char} {cs : List Char}

section Arithmetic

/-- No operation of the step that adds a digit leaves the range of its machine integers. -/
structure IsExact (m : Int64) (c : Char) : Prop where
  digit : c.toNat = '0'.toNat + digitValue c
  product : (m * 10).toInt = m.toInt * 10
  sum : (m * 10 + Int64.ofNat (digitValue c)).toInt = m.toInt * 10 + digitValue c

theorem toNat_eq_of_isDigit (digit : isDigit c = true) : c.toNat = '0'.toNat + digitValue c := by
  have low : '0'.toNat ≤ c.toNat := (toNat_of_isDigit digit).1
  rw [digitValue, Nat.add_sub_cancel' low]

theorem isExact_of_takeWhile {before after : List Char}
    (read : cs.takeWhile isDigit = before ++ c :: after) : IsExact (before.foldl addDigit 0) c := by
  have all : ∀ x ∈ before ++ c :: after, isDigit x = true := fun x member =>
    isDigit_of_mem_takeWhile (read ▸ member)
  rw [List.forall_mem_append, List.forall_mem_cons] at all
  obtain ⟨earlier, digit, -⟩ := all
  have accumulated := foldl_addDigit (m := 0) (n := 0) earlier rfl
  have limit : magnitudeLimit.toInt = 2147483648 := rfl
  have low : 0 ≤ (before.foldl addDigit 0).toInt := by omega
  have high : (before.foldl addDigit 0).toInt ≤ magnitudeLimit.toInt := by omega
  exact ⟨toNat_eq_of_isDigit digit, toInt_shifted low high, toInt_extended low high digit⟩

end Arithmetic

section Bytes

def bytes (cs : List Char) : List UInt8 := (String.ofList cs).toUTF8.data.toList

theorem bytes_eq_flatMap (cs : List Char) : bytes cs = cs.flatMap utf8EncodeChar := by
  rw [bytes, String.toUTF8, String.toByteArray_ofList, List.utf8Encode,
    List.toList_data_toByteArray]

theorem head?_utf8EncodeChar_iff {ascii : Char} (small : ascii.toNat < 0x80) :
    (utf8EncodeChar c).head? = some (UInt8.ofNat ascii.toNat) ↔ c = ascii := by
  have value : (UInt8.ofNat ascii.toNat).toNat = ascii.toNat := by
    rw [UInt8.toNat_ofNat', Nat.mod_eq_of_lt (by omega)]
  rw [← Char.toNat_inj]
  simp only [utf8EncodeChar, Char.toNat_val]
  -- the first byte of a longer encoding is 192 or more
  split_ifs <;> rw [List.head?_cons, Option.some.injEq, ofNat_eq_iff, value] <;> omega

theorem head?_bytes_iff {ascii : Char} (small : ascii.toNat < 0x80) :
    (bytes cs).head? = some (UInt8.ofNat ascii.toNat) ↔ cs.head? = some ascii := by
  rw [bytes_eq_flatMap]
  cases cs with
  | nil => simp
  | cons c cs =>
    rw [List.flatMap_cons, List.head?_append, List.head?_cons, Option.some.injEq,
      ← head?_utf8EncodeChar_iff small]
    obtain ⟨first, more, split⟩ := List.exists_cons_of_ne_nil (@String.utf8EncodeChar_ne_nil c)
    rw [split]
    rfl

theorem cut_behind_head (first : cs.head? = some c) (one : c.utf8Size = 1) :
    String.Pos.Raw.IsValid (String.ofList cs) ⟨1⟩ ∧ (bytes cs).tail = bytes cs.tail := by
  obtain ⟨more, rfl⟩ := List.head?_eq_some_iff.1 first
  refine ⟨String.Pos.Raw.isValid_ofList.2 ⟨1, ?_⟩, ?_⟩
  · simp [one]
  · simp [bytes_eq_flatMap, String.utf8EncodeChar_eq_singleton one]

end Bytes

/-- A sign counts if it stands right behind the blanks. The number behind it may have any length: it
is read as if the accumulator had no bounds and clamped at the end. What is written is read back,
whatever follows that is no digit. -/
theorem readInt32_saturates (raw : String) :
    let text := trimStart raw.toList
    let rest := if text.head? = some '-' ∨ text.head? = some '+' then text.tail else text
    let written := Nat.ofDigitChars 10 (rest.takeWhile isDigit) 0
    splitSign text = (decide (text.head? = some '-'), rest) ∧
    (readInt32 raw.toList).toInt = max (-2147483648) (min 2147483647
      (if text.head? = some '-' then -(written : Int) else written)) ∧
    (∀ before c after, rest.takeWhile isDigit = before ++ c :: after →
      IsExact (before.foldl addDigit 0) c) ∧
    (-readMagnitude rest).toInt = -(readMagnitude rest).toInt ∧
    ((bytes text).head? = some 45 ↔ text.head? = some '-') ∧
    ((bytes text).head? = some 43 ↔ text.head? = some '+') ∧
    (text.head? = some '-' ∨ text.head? = some '+' →
      String.Pos.Raw.IsValid (String.ofList text) ⟨1⟩ ∧ (bytes text).tail = bytes rest) ∧
    ∀ (n : Int32) (more : String), (∀ c ∈ more.toList.head?, isDigit c = false) →
      Kind.int32.read ((Value.int32 n).render ++ more) = .int32 n := by
  intro text rest written
  have split : splitSign text = (decide (text.head? = some '-'), rest) := splitSign_eq text
  refine ⟨split, ?_, fun before c after => isExact_of_takeWhile, toInt_neg_readMagnitude rest,
    @head?_bytes_iff text '-' (by decide), @head?_bytes_iff text '+' (by decide), fun signed => ?_,
    fun n more stop => ?_⟩
  · have read := toInt_readInt32 raw.toList
    rw [split] at read
    simpa only [decide_eq_true_eq] using read
  · have behind : rest = text.tail := if_pos signed
    rw [behind]
    exact signed.elim (cut_behind_head · rfl) (cut_behind_head · rfl)
  · rw [Kind.read, Value.render, String.toList_append, readInt32_toString n stop]

theorem readInt32_saturates_least :
    (∀ c ∈ ".5".toList.head?, isDigit c = false) ∧
    Kind.int32.read ((Value.int32 (-2147483648)).render ++ ".5") = .int32 (-2147483648) := by
  have stop : ∀ c ∈ ".5".toList.head?, isDigit c = false := by
    intro c first
    obtain rfl : '.' = c := Option.some.inj first
    rfl
  obtain ⟨-, -, -, -, -, -, -, back⟩ := readInt32_saturates ".5"
  exact ⟨stop, back (-2147483648) ".5" stop⟩

end LoginSession.Text

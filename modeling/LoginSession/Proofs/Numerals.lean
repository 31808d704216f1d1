import LoginSession.Json.Literal

namespace LoginSession

namespace Text

theorem isDigit_of_mem_toDigits {n : Nat} {c : Char} (member : c ∈ Nat.toDigits 10 n) :
    isDigit c = true := by
  have digit := Nat.isDigit_of_mem_toDigits (by decide) (by decide) member
  simpa [isDigit, Char.isDigit, Char.le_def] using digit

theorem toNat_of_isDigit {c : Char} (digit : isDigit c = true) : 48 ≤ c.toNat ∧ c.toNat ≤ 57 := by
  simp only [isDigit, Bool.and_eq_true, decide_eq_true_eq, Char.le_def, UInt32.le_iff_toNat_le]
    at digit
  exact digit

theorem isBlank_of_isDigit {c : Char} (digit : isDigit c = true) : isBlank c = false := by
  have range := toNat_of_isDigit digit
  simp [isBlank]
  omega

variable {rest : List Char}

theorem takeWhile_toDigits (n : Nat) (stop : ∀ c ∈ rest.head?, isDigit c = false) :
    (Nat.toDigits 10 n ++ rest).takeWhile isDigit = Nat.toDigits 10 n := by
  rw [List.takeWhile_append_of_pos fun _ => isDigit_of_mem_toDigits]
  cases rest with
  | nil => simp
  | cons c rest => simp [stop c rfl]

theorem dropWhile_toDigits (n : Nat) (stop : ∀ c ∈ rest.head?, isDigit c = false) :
    (Nat.toDigits 10 n ++ rest).dropWhile isDigit = rest := by
  rw [List.dropWhile_append_of_pos fun _ => isDigit_of_mem_toDigits]
  cases rest with
  | nil => rfl
  | cons c rest => simp [stop c rfl]

theorem digitValue_le {c : Char} (digit : isDigit c = true) : digitValue c ≤ 9 := by
  have range := toNat_of_isDigit digit
  have zero : '0'.toNat = 48 := rfl
  rw [digitValue]
  omega

theorem toInt_min (a b : Int64) : (min a b).toInt = min a.toInt b.toInt := by
  have least : min a b = if a ≤ b then a else b := rfl
  rw [least]
  by_cases order : a ≤ b
  · have values := Int64.le_iff_toInt_le.1 order
    rw [if_pos order]
    omega
  · have values := mt Int64.le_iff_toInt_le.2 order
    rw [if_neg order]
    omega

theorem toInt_max (a b : Int64) : (max a b).toInt = max a.toInt b.toInt := by
  have greatest : max a b = if a ≤ b then b else a := rfl
  rw [greatest]
  by_cases order : a ≤ b
  · have values := Int64.le_iff_toInt_le.1 order
    rw [if_pos order]
    omega
  · have values := mt Int64.le_iff_toInt_le.2 order
    rw [if_neg order]
    omega

section

variable {m : Int64} {c : Char}

theorem toInt_shifted (low : 0 ≤ m.toInt) (high : m.toInt ≤ magnitudeLimit.toInt) :
    (m * 10).toInt = m.toInt * 10 := by
  have limit : magnitudeLimit.toInt = 2147483648 := rfl
  have ten : (10 : Int64).toInt = 10 := rfl
  rw [Int64.toInt_mul, ten]
  exact Int.bmod_eq_of_le (by omega) (by omega)

theorem toInt_digit (digit : isDigit c = true) :
    (Int64.ofNat (digitValue c)).toInt = digitValue c := by
  have small := digitValue_le digit
  exact Int64.toInt_ofNat_of_lt (by omega)

theorem toInt_extended (low : 0 ≤ m.toInt) (high : m.toInt ≤ magnitudeLimit.toInt)
    (digit : isDigit c = true) :
    (m * 10 + Int64.ofNat (digitValue c)).toInt = m.toInt * 10 + digitValue c := by
  have limit : magnitudeLimit.toInt = 2147483648 := rfl
  have small := digitValue_le digit
  rw [Int64.toInt_add, toInt_shifted low high, toInt_digit digit]
  exact Int.bmod_eq_of_le (by omega) (by omega)

/-- Past the limit a digit no longer counts, so the fold may be capped before it or after it. -/
theorem foldl_addDigit {digits : List Char} (all : ∀ c ∈ digits, isDigit c = true) {n : Nat}
    (start : m.toInt = min (n : Int) magnitudeLimit.toInt) :
    (digits.foldl addDigit m).toInt =
      min (Nat.ofDigitChars 10 digits n : Int) magnitudeLimit.toInt := by
  induction digits generalizing m n with
  | nil => exact start
  | cons c digits ih =>
    rw [List.forall_mem_cons] at all
    have limit : magnitudeLimit.toInt = 2147483648 := rfl
    have sum := toInt_extended (m := m) (by omega) (by omega) all.1
    have step : (addDigit m c).toInt =
        min ((10 * n + digitValue c : Nat) : Int) magnitudeLimit.toInt := by
      rw [addDigit, toInt_min, sum]
      omega
    rw [List.foldl_cons, ih all.2 step, Nat.ofDigitChars_cons, digitValue]

end

theorem isDigit_of_mem_takeWhile {cs : List Char} {c : Char} (member : c ∈ cs.takeWhile isDigit) :
    isDigit c = true :=
  List.all_eq_true.1 List.all_takeWhile c member

theorem toInt_readMagnitude (cs : List Char) : (readMagnitude cs).toInt =
    min (Nat.ofDigitChars 10 (cs.takeWhile isDigit) 0 : Int) magnitudeLimit.toInt :=
  foldl_addDigit (fun _ => isDigit_of_mem_takeWhile) rfl

theorem toInt_neg_readMagnitude (cs : List Char) :
    (-readMagnitude cs).toInt = -(readMagnitude cs).toInt := by
  have limit : magnitudeLimit.toInt = 2147483648 := rfl
  have magnitude := toInt_readMagnitude cs
  rw [Int64.toInt_neg]
  exact Int.bmod_eq_of_le (by omega) (by omega)

theorem toInt_clampInt32 (n : Int64) :
    (clampInt32 n).toInt = max (-2147483648) (min 2147483647 n.toInt) := by
  have low : (-2147483648 : Int64).toInt = -2147483648 := rfl
  have high : (2147483647 : Int64).toInt = 2147483647 := rfl
  rw [clampInt32, Int64.toInt_toInt32, toInt_max, toInt_min, low, high]
  exact Int.bmod_eq_of_le (by omega) (by omega)

theorem toInt_readInt32 (cs : List Char) : (readInt32 cs).toInt =
    max (-2147483648) (min 2147483647
      (if (splitSign (trimStart cs)).1 then
        -(Nat.ofDigitChars 10 ((splitSign (trimStart cs)).2.takeWhile isDigit) 0 : Int)
      else Nat.ofDigitChars 10 ((splitSign (trimStart cs)).2.takeWhile isDigit) 0)) := by
  have limit : magnitudeLimit.toInt = 2147483648 := rfl
  have magnitude := toInt_readMagnitude (splitSign (trimStart cs)).2
  have negated := toInt_neg_readMagnitude (splitSign (trimStart cs)).2
  rw [readInt32, toInt_clampInt32]
  split <;> omega

theorem toList_toString (n : Int) : (toString n).toList =
    if n < 0 then '-' :: Nat.toDigits 10 n.natAbs else Nat.toDigits 10 n.natAbs := by
  cases n with
  | ofNat m => simp [Int.toString_eq_repr, Int.repr]
  | negSucc m => simp [Int.toString_eq_repr, Int.repr, Int.negSucc_lt_zero]

theorem splitSign_eq (cs : List Char) : splitSign cs = (decide (cs.head? = some '-'),
    if cs.head? = some '-' ∨ cs.head? = some '+' then cs.tail else cs) := by
  unfold splitSign
  split
  · simp
  · simp
  · rename_i minus plus
    cases cs with
    | nil => simp
    | cons c cs =>
      have noMinus : c ≠ '-' := by
        rintro rfl
        exact minus cs rfl
      have noPlus : c ≠ '+' := by
        rintro rfl
        exact plus cs rfl
      simp [noMinus, noPlus]

theorem splitSign_toString (n : Int) (rest : List Char) :
    splitSign (trimStart ((toString n).toList ++ rest)) =
      (decide (n < 0), Nat.toDigits 10 n.natAbs ++ rest) := by
  rw [toList_toString]
  by_cases negative : n < 0
  · rw [if_pos negative, List.cons_append, trimStart, List.dropWhile_cons_of_neg (by decide),
      splitSign, decide_eq_true negative]
  · obtain ⟨c, digits, split⟩ := List.exists_cons_of_ne_nil
      (Nat.toDigits_ne_nil (n := n.natAbs) (b := 10))
    have digit : isDigit c = true :=
      isDigit_of_mem_toDigits (n := n.natAbs) (split ▸ List.mem_cons_self)
    have noMinus : c ≠ '-' := by
      rintro rfl
      exact absurd digit (by decide)
    have noPlus : c ≠ '+' := by
      rintro rfl
      exact absurd digit (by decide)
    rw [if_neg negative, split, List.cons_append, trimStart,
      List.dropWhile_cons_of_neg (by simp [isBlank_of_isDigit digit]), splitSign_eq,
      decide_eq_false negative]
    simp [noMinus, noPlus]

theorem readInt32_toString (n : Int32) (stop : ∀ c ∈ rest.head?, isDigit c = false) :
    readInt32 ((toString n.toInt).toList ++ rest) = n := by
  have low := n.le_toInt
  have high := n.toInt_lt
  rw [← Int32.toInt_inj, toInt_readInt32, splitSign_toString, takeWhile_toDigits _ stop,
    Nat.ofDigitChars_ten_toDigits]
  by_cases negative : n.toInt < 0
  · simp only [negative, decide_true, if_true]
    omega
  · simp only [negative, decide_false, Bool.false_eq_true, if_false]
    omega

end Text

namespace Json

theorem natOfDigits_eq (digits : List Char) :
    natOfDigits digits = Nat.ofDigitChars 10 digits 0 := by
  simp only [natOfDigits, Nat.ofDigitChars_eq_foldl, Nat.mul_comm]

theorem natOfDigits_toDigits (n : Nat) : natOfDigits (Nat.toDigits 10 n) = n := by
  rw [natOfDigits_eq, Nat.ofDigitChars_ten_toDigits]

theorem head?_toDigits_ne {n : Nat} (positive : 0 < n) : (Nat.toDigits 10 n).head? ≠ some '0' := by
  induction n using Nat.strongRecOn with
  | ind n ih =>
    by_cases single : n < 10
    · rw [Nat.toDigits_of_lt_base single]
      simp
      omega
    · have first := ih (n / 10) (by omega) (by omega)
      obtain ⟨c, digits, split⟩ := List.exists_cons_of_ne_nil
        (Nat.toDigits_ne_nil (n := n / 10) (b := 10))
      rw [split] at first
      rw [Nat.toDigits_of_base_le (by decide) (by omega), split]
      exact first

theorem isWholePart_toDigits (n : Nat) : isWholePart (Nat.toDigits 10 n) = true := by
  rcases Nat.eq_zero_or_pos n with rfl | positive
  · rfl
  · have first := head?_toDigits_ne positive
    obtain ⟨c, digits, split⟩ := List.exists_cons_of_ne_nil (Nat.toDigits_ne_nil (n := n) (b := 10))
    rw [split, List.head?_cons, Ne, Option.some.injEq] at first
    rw [split]
    unfold isWholePart
    split
    · contradiction
    · rfl
    · rename_i same
      cases same
      simpa using first

end Json

end LoginSession

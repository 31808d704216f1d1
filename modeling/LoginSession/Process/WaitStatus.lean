import LoginSession.Process.Exit
import Mathlib.Data.Nat.Bitwise

namespace LoginSession

namespace WaitStatus

variable {w : UInt32}

def ending (w : UInt32) : Int32 := (w &&& 0x7f).toInt32

def hasExited (w : UInt32) : Bool := ending w = 0

def exitCode (w : UInt32) : Int32 := ((w >>> 8) &&& 0xff).toInt32

/-- The sum is taken in a signed byte, in which seven ones and one more are negative. -/
def wasKilled (w : UInt32) : Bool := 2 ≤ (ending w + 1).toInt8

def isStopped (w : UInt32) : Bool := w &&& 0xff = 0x7f

def isContinued (w : UInt32) : Bool := w = 0xffff

def code? (w : UInt32) : Option Int32 := if hasExited w then some (exitCode w) else none

def signal? (w : UInt32) : Option Int32 := if wasKilled w then some (ending w) else none

/-- The status word bit by bit, as the masks and shifts of the system's own header take it apart, in
arithmetic of their width. A word that tells of neither reads as an exit with -1. -/
def decode (w : UInt32) : Exit :=
  match code? w, signal? w with
  | some code, _ => .exited code.toInt
  | none, some signal => .signaled signal.toInt
  | none, none => .exited (-1)

/-- No signal and no code: seven bits at the low end and the second byte are zero. -/
structure IsClean (w : UInt32) : Prop where
  ending : ∀ i < 7, w.toBitVec.getLsbD i = false
  code : ∀ i, 8 ≤ i → i ≤ 15 → w.toBitVec.getLsbD i = false

theorem toNat_low (w : UInt32) : (w &&& 0x7f).toNat = w.toNat % 128 := by
  rw [UInt32.toNat_and]
  exact Nat.and_two_pow_sub_one_eq_mod w.toNat 7

theorem toNat_second (w : UInt32) : ((w >>> 8) &&& 0xff).toNat = w.toNat / 256 % 256 := by
  have shifted : (w >>> 8).toNat = w.toNat / 256 := by
    rw [UInt32.toNat_shiftRight]
    exact Nat.shiftRight_eq_div_pow w.toNat 8
  rw [UInt32.toNat_and, shifted]
  exact Nat.and_two_pow_sub_one_eq_mod (w.toNat / 256) 8

theorem toInt_of_small (small : w.toNat < 2 ^ 31) : w.toInt32.toInt = w.toNat := by
  refine BitVec.toInt_eq_toNat_of_lt ?_
  rw [UInt32.toBitVec_toInt32, UInt32.toNat_toBitVec]
  omega

theorem toInt_ending (w : UInt32) : (ending w).toInt = (w.toNat % 128 : Nat) := by
  have low := toNat_low w
  rw [ending, toInt_of_small (by omega), low]

theorem toInt_exitCode (w : UInt32) : (exitCode w).toInt = (w.toNat / 256 % 256 : Nat) := by
  have second := toNat_second w
  rw [exitCode, toInt_of_small (by omega), second]

theorem hasExited_iff : hasExited w = true ↔ w.toNat % 128 = 0 := by
  have low := toInt_ending w
  have zero : (0 : Int32).toInt = 0 := rfl
  rw [hasExited, decide_eq_true_iff, ← Int32.toInt_inj, low, zero]
  omega

theorem wasKilled_iff : wasKilled w = true ↔ w.toNat % 128 ≠ 0 ∧ w.toNat % 128 ≠ 127 := by
  have low := toInt_ending w
  have one : (1 : Int32).toInt = 1 := rfl
  have two : (2 : Int8).toInt = 2 := rfl
  have sum : (ending w + 1).toInt = (w.toNat % 128 : Nat) + 1 := by
    rw [Int32.toInt_add, low, one]
    exact Int.bmod_eq_of_le (by omega) (by omega)
  rw [wasKilled, decide_eq_true_iff, Int8.le_iff_toInt_le, two, Int32.toInt_toInt8, sum, Int.bmod]
  omega

theorem toInt_shellCode (w : UInt32) : (128 + ending w).toInt = 128 + (ending w).toInt := by
  have low := toInt_ending w
  have base : (128 : Int32).toInt = 128 := rfl
  rw [Int32.toInt_add, base]
  exact Int.bmod_eq_of_le (by omega) (by omega)

theorem ofStatus_eq_decode (w : UInt32) : Exit.ofStatus w = decode w := by
  have low := toInt_ending w
  have second := toInt_exitCode w
  rw [Exit.ofStatus, decode, code?, signal?]
  by_cases exited : w.toNat % 128 = 0
  · rw [if_pos exited, if_pos (hasExited_iff.2 exited)]
    simp only [second]
  · rw [if_neg exited, if_neg (mt hasExited_iff.1 exited)]
    by_cases undecodable : w.toNat % 128 = 127
    · have alive : ¬wasKilled w = true := fun killed => (wasKilled_iff.1 killed).2 undecodable
      rw [if_neg (not_not_intro undecodable), if_neg alive]
    · rw [if_pos undecodable, if_pos (wasKilled_iff.2 ⟨exited, undecodable⟩)]
      simp only [low]

theorem stretch_eq_zero_iff {n first count : Nat} :
    n / 2 ^ first % 2 ^ count = 0 ↔ ∀ i < count, n.testBit (i + first) = false := by
  have bit (i : Nat) : (n / 2 ^ first % 2 ^ count).testBit i =
      (decide (i < count) && n.testBit (i + first)) := by
    rw [Nat.testBit_mod_two_pow, Nat.testBit_div_two_pow]
  constructor
  · intro zero i inside
    have here := bit i
    rw [zero, Nat.zero_testBit, decide_eq_true inside, Bool.true_and] at here
    exact here.symm
  · intro unset
    refine Nat.zero_of_testBit_eq_false fun i => ?_
    rw [bit]
    by_cases inside : i < count
    · rw [unset i inside, Bool.and_false]
    · rw [decide_eq_false inside, Bool.false_and]

theorem isClean_iff : IsClean w ↔ w.toNat % 128 = 0 ∧ w.toNat / 256 % 256 = 0 := by
  have low := @stretch_eq_zero_iff w.toNat 0 7
  have second := @stretch_eq_zero_iff w.toNat 8 8
  rw [Nat.pow_zero, Nat.div_one] at low
  have bit (i : Nat) : w.toBitVec.getLsbD i = w.toNat.testBit i := by
    rw [← BitVec.testBit_toNat, UInt32.toNat_toBitVec]
  constructor
  · intro clean
    refine ⟨low.2 fun i inside => ?_, second.2 fun i inside => ?_⟩
    · rw [← bit]
      exact clean.ending i inside
    · rw [← bit]
      exact clean.code (i + 8) (by omega) (by omega)
  · rintro ⟨noSignal, noCode⟩
    refine ⟨fun i inside => ?_, fun i from8 to15 => ?_⟩
    · rw [bit]
      exact low.1 noSignal i inside
    · have here := second.1 noCode (i - 8) (by omega)
      rw [Nat.sub_add_cancel from8] at here
      rw [bit, here]

instance (w : UInt32) : Decidable (IsClean w) := decidable_of_iff _ isClean_iff.symm

theorem isSuccess_iff_isClean : (Exit.ofStatus w).isSuccess = true ↔ IsClean w :=
  (Exit.isSuccess_ofStatus w).trans isClean_iff.symm

end WaitStatus

end LoginSession

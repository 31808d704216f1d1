namespace LoginSession

inductive Exit where
  | exited (code : Int)
  | signaled (signal : Int)
  deriving DecidableEq, Repr

namespace Exit

/-- The low seven bits hold the signal that killed the process, or 0 after a normal exit, whose code
is in the second byte. A status that tells of neither reads as the impossible code -1. -/
def ofStatus (status : UInt32) : Exit :=
  let low := status.toNat % 128
  if low = 0 then .exited ((status.toNat / 256 % 256 : Nat) : Int)
  else if low ≠ 127 then .signaled low
  else .exited (-1)

/-- The code that a shell reports: a death by a signal counts from 128. -/
def code : Exit → Int
  | .exited code => code
  | .signaled signal => 128 + signal

def isSuccess (e : Exit) : Bool := e = .exited 0

def text : Exit → String
  | .exited code => s!"exited with status {code}"
  | .signaled signal => s!"killed by signal {signal}"

theorem isSuccess_ofStatus (status : UInt32) :
    (ofStatus status).isSuccess = true ↔
      status.toNat % 128 = 0 ∧ status.toNat / 256 % 256 = 0 := by
  rw [isSuccess, decide_eq_true_eq, ofStatus]
  by_cases unsignaled : status.toNat % 128 = 0
  · rw [if_pos unsignaled, exited.injEq, Int.natCast_eq_zero]
    exact (and_iff_right unsignaled).symm
  · rw [if_neg unsignaled]
    have ended : ¬(status.toNat % 128 = 0 ∧ status.toNat / 256 % 256 = 0) :=
      fun clear => unsignaled clear.1
    rw [iff_false_right ended]
    by_cases killed : status.toNat % 128 ≠ 127
    · rw [if_pos killed]
      exact nofun
    · rw [if_neg killed]
      exact nofun

end Exit

end LoginSession

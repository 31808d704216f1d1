namespace LoginSession.Text

def replacement : Char := '\uFFFD'

structure Owed where
  count : Nat
  low : UInt8
  high : UInt8
  bits : Nat
  continuation : 0x80 ≤ low := by decide

/-- The second byte has a narrower range after four of the lead bytes: it excludes overlong forms,
surrogates and code points past the last. -/
def Owed.ofLead (b : UInt8) : Option Owed :=
  let n := b.toNat
  if 0xc2 ≤ n ∧ n ≤ 0xdf then some { count := 1, low := 0x80, high := 0xbf, bits := n - 0xc0 }
  else if n = 0xe0 then some { count := 2, low := 0xa0, high := 0xbf, bits := 0 }
  else if n = 0xed then some { count := 2, low := 0x80, high := 0x9f, bits := 0xd }
  else if 0xe1 ≤ n ∧ n ≤ 0xef then some { count := 2, low := 0x80, high := 0xbf, bits := n - 0xe0 }
  else if n = 0xf0 then some { count := 3, low := 0x90, high := 0xbf, bits := 0 }
  else if 0xf1 ≤ n ∧ n ≤ 0xf3 then some { count := 3, low := 0x80, high := 0xbf, bits := n - 0xf0 }
  else if n = 0xf4 then some { count := 3, low := 0x80, high := 0x8f, bits := 4 }
  else none

/-- A longest run of bytes that starts a character and cannot be continued by the next byte becomes
one replacement character, so a damaged character never swallows its successor. The text read so far
is kept backwards, last character first. -/
structure Decoder where
  owed : Option Owed := none
  text : List Char := []

namespace Decoder

def start (text : List Char) (b : UInt8) : Decoder :=
  if b.toNat < 0x80 then ⟨none, Char.ofNat b.toNat :: text⟩
  else match Owed.ofLead b with
    | some owed => ⟨some owed, text⟩
    | none => ⟨none, replacement :: text⟩

def push (d : Decoder) (b : UInt8) : Decoder :=
  match d.owed with
  | none => start d.text b
  | some owed =>
    if owed.low ≤ b ∧ b ≤ owed.high then
      let bits := owed.bits * 64 + (b.toNat - 0x80)
      if owed.count ≤ 1 then ⟨none, Char.ofNat bits :: d.text⟩
      else ⟨some { count := owed.count - 1, low := 0x80, high := 0xbf, bits }, d.text⟩
    else start (replacement :: d.text) b

def finish (d : Decoder) : List Char :=
  match d.owed with
  | none => d.text.reverse
  | some _ => (replacement :: d.text).reverse

theorem push_newline (d : Decoder) : d.push 10 = ⟨none, '\n' :: d.finish.reverse⟩ := by
  obtain ⟨owed, text⟩ := d
  cases owed with
  | none => simp [push, start, finish]
  | some owed =>
    have below : ¬ owed.low ≤ 10 := by
      have := owed.continuation
      simp only [UInt8.le_iff_toNat_le] at this ⊢
      have : (0x80 : UInt8).toNat = 128 := rfl
      have : (10 : UInt8).toNat = 10 := rfl
      omega
    simp [push, below, start, finish]

end Decoder

def decodeLossy (bytes : List UInt8) : List Char := (bytes.foldl Decoder.push {}).finish

def encode (cs : List Char) : List UInt8 := (String.ofList cs).toUTF8.toList

end LoginSession.Text

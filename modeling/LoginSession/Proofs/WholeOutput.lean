import LoginSession.Proofs.Decoding
import LoginSession.Proofs.Delivery
import LoginSession.Proofs.Merge

namespace LoginSession

theorem flatten_cutLines (bytes : List UInt8) : (cutLines bytes).flatten = bytes := by
  induction bytes with
  | nil => rfl
  | cons b bytes ih =>
    rw [cutLines]
    split
    · rw [List.flatten_cons, ih, List.singleton_append]
    · cases cut : cutLines bytes with
      | nil =>
        rw [cut, List.flatten_nil] at ih
        simp [← ih]
      | cons line lines =>
        rw [cut, List.flatten_cons] at ih
        simp [← ih]

theorem Capture.decode_append_newline (line rest : List UInt8) :
    decode (line ++ 10 :: rest) = decode (line ++ [10]) ++ decode rest := by
  have alone : Text.decodeLossy (line ++ [10]) = Text.decodeLossy line ++ ['\n'] :=
    Text.decodeLossy_append_newline line []
  rw [decode, Text.decodeLossy_append_newline, decode, alone, decode, ← String.ofList_append,
    List.append_assoc, List.singleton_append]

theorem decodeLines_eq (bytes : List UInt8) : decodeLines bytes = Capture.decode bytes := by
  induction count : bytes.length using Nat.strongRecOn generalizing bytes with
  | ind n ih =>
    -- the first line is decoded by itself on both sides; what follows its newline is shorter
    by_cases more : 10 ∈ bytes
    · obtain ⟨line, rest, rfl, free⟩ := List.eq_append_cons_of_mem more
      have ends : EndsLine (line ++ [10]) := .inr (by simp)
      have split : line ++ 10 :: rest = line ++ [10] ++ rest := by simp
      have shorter : rest.length < n := by
        rw [← count, List.length_append, List.length_cons]
        omega
      have later := ih rest.length shorter rest rfl
      rw [Capture.decode_append_newline, split, decodeLines_append ends, decodeLines_line free,
        later]
    · exact decodeLines_of_not_mem more

namespace Delivery

/-- A stream that has been read to its end has been decoded as if it had been read at once. Bytes
that are no text are decoded by the rules of Unicode. -/
theorem captured_whole :
    (∀ bytes cs, Text.Decodes bytes cs ↔ cs = Text.decodeLossy bytes) ∧
    (∀ bytes, (cutLines bytes).flatten = bytes ∧
      String.join ((cutLines bytes).map Capture.decode) = Capture.decode bytes) ∧
    ∀ sent events final, (start sent).run events = some final →
      ∀ s, (final.watch.capture s).isOpen = false →
        (final.watch.capture s).text = Capture.decode (sent s) ∧
        ∀ skip, ParameterSet.ofReport skip (final.watch.capture s).text =
          ParameterSet.ofReport skip (Capture.decode (sent s)) := by
  refine ⟨fun _ _ => Text.decodes_iff,
    fun bytes => ⟨flatten_cutLines bytes, decodeLines_eq bytes⟩, ?_⟩
  intro sent events final ran s closed
  have text : (final.watch.capture s).text = Capture.decode (sent s) :=
    (((sound_start sent).run ran s).of_closed closed).2.trans (decodeLines_eq (sent s))
  exact ⟨text, fun skip => by rw [text]⟩

/-- One character is cut short by a newline and another by the end of the stream; before the second
stands a byte that begins none. -/
def broken : Stream → List UInt8
  | .output => ("is-local = true\nsession-type = ".toList.map fun c => UInt8.ofNat c.toNat) ++
    [0xe2, 0x82, 10, 0x80, 0xf0, 0x9f]
  | .diagnostics => []

def brokenEvents : List Watch.Event :=
  [.read .output ((broken .output).take 32), .read .output ((broken .output).drop 32),
    .endOfStream .output, .endOfStream .output]

theorem captured_whole_broken : ∃ final, (start broken).run brokenEvents = some final ∧
    (final.watch.capture .output).text = "is-local = true\nsession-type = \uFFFD\n\uFFFD\uFFFD" ∧
    (ParameterSet.ofReport (· = "is-local") (final.watch.capture .output).text).entries =
      [⟨"session-type", .text "\uFFFD"⟩] := by
  have possible : ((start broken).run brokenEvents).isSome := by decide
  obtain ⟨final, ran⟩ := Option.isSome_iff_exists.1 possible
  have closed : (final.watch.capture .output).isOpen = false := by
    have all : ∀ d ∈ (start broken).run brokenEvents, (d.watch.capture .output).isOpen = false := by
      decide
    exact all final ran
  obtain ⟨text, parameters⟩ := captured_whole.2.2 broken brokenEvents final ran .output closed
  refine ⟨final, ran, text.trans (by decide), ?_⟩
  rw [parameters]
  decide

end Delivery

end LoginSession

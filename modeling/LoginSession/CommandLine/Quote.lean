import LoginSession.CommandLine.Words

namespace LoginSession.CommandLine

def isPlain (c : Char) : Bool :=
  c.isAlphanum || "-_./:=+,@%".toList.contains c

/-- A quote inside single quotes closes them, stands escaped and opens them again. -/
def quoteChar (c : Char) : List Char := if c = '\'' then ['\'', '\\', '\'', '\''] else [c]

def quoteChars (word : List Char) : List Char :=
  if word ≠ [] ∧ word.all isPlain = true then word
  else '\'' :: word.flatMap quoteChar ++ ['\'']

def quote (word : String) : String := String.ofList (quoteChars word.toList)

theorem isPlain_not_separator {c : Char} (h : isSeparator c = true) : isPlain c = false := by
  simp only [isSeparator, Bool.or_eq_true, decide_eq_true_eq] at h
  rcases h with (rfl | rfl) | rfl <;> decide

theorem isPlain_not_quoting {c : Char} (h : c = '#' ∨ c = '\\' ∨ c = '\'' ∨ c = '"') :
    isPlain c = false := by
  rcases h with rfl | rfl | rfl | rfl <;> decide

end LoginSession.CommandLine

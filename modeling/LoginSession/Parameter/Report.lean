import LoginSession.Parameter.Set

namespace LoginSession

namespace Parameter

def ofLine? (skip : String → Bool) (line : List Char) : Option Parameter :=
  match Text.cutAt? separator.toList line with
  | none => none
  | some (key, raw) =>
    let key := String.ofList key
    if skip key then none else discovered? key (String.ofList raw)

end Parameter

/-- A line without the separator or with a key that no helper may report is dropped, and so is every
key that the reader asks to skip. Duplicate keys stay, in the order of their lines. -/
def ParameterSet.ofReport (skip : String → Bool) (report : String) : ParameterSet :=
  ⟨(Text.lines report.toList).filterMap (Parameter.ofLine? skip)⟩

def ParameterSet.renderLines (s : ParameterSet) : String :=
  String.join (s.entries.map fun p => p.render ++ "\n")

end LoginSession

import LoginSession.Parameter.Value
import LoginSession.Text.Cut

namespace LoginSession

structure Parameter where
  key : String
  value : Value
  deriving DecidableEq, Repr

namespace Parameter

def separator : String := " = "

def discoveredKeys : List (String × Kind) :=
  [("login-session-id", .text),
   ("display-device", .text),
   ("x11-display-device", .text),
   ("x11-display", .text),
   ("remote-host-name", .text),
   ("session-type", .text),
   ("is-local", .boolean),
   ("unix-user", .int32)]

def kindOf? (key : String) : Option Kind := discoveredKeys.lookup key

def render (p : Parameter) : String := p.key ++ separator ++ p.value.render

def discovered? (key raw : String) : Option Parameter :=
  (kindOf? key).map fun kind => ⟨key, kind.read raw⟩

/-- Reads `KEY=VALUE` as a caller writes it: blanks around either half do not count, and a key that
no helper may report has a text for its value. -/
def ofAssignment? (assignment : String) : Option Parameter :=
  match Text.cutAt? ['='] assignment.toList with
  | none => none
  | some (key, raw) =>
    match Text.trim key with
    | [] => none
    | key =>
      let key := String.ofList key
      let raw := String.ofList (Text.trim raw)
      some ((discovered? key raw).getD ⟨key, .text raw⟩)

theorem kind_of_discovered? {key raw : String} {p : Parameter} (h : discovered? key raw = some p) :
    p.key = key ∧ kindOf? key = some p.value.kind := by
  simp only [discovered?, Option.map_eq_some_iff] at h
  obtain ⟨kind, hk, rfl⟩ := h
  exact ⟨rfl, by rw [hk, Kind.kind_read]⟩

end Parameter

end LoginSession

import LoginSession.Json.Reader
import LoginSession.Json.Printer
import LoginSession.Parameter.Set

namespace LoginSession

def int32Min : Int := -2147483648

def int32Max : Int := 2147483647

namespace Value

def toJson : Value → Json
  | .text s => .string (some s)
  | .boolean b => .boolean b
  | .int32 n => .integer n.toInt

def ofJson? : Json → Option Value
  | .string (some s) => some (.text s)
  | .boolean b => some (.boolean b)
  | .integer n => if int32Min ≤ n ∧ n ≤ int32Max then some (.int32 (Int32.ofInt n)) else none
  | _ => none

end Value

namespace Parameter

def toJson (p : Parameter) : Json :=
  .object [(some "key", .string (some p.key)), (some "value", p.value.toJson)]

def member? (name : String) (members : List (Option String × Json)) : Option Json :=
  match members.filter (·.1 = some name) with
  | [(_, value)] => some value
  | _ => none

def ofParts? (key value : Json) : Option Parameter :=
  match key, Value.ofJson? value with
  | .string (some key), some value => some ⟨key, value⟩
  | _, _ => none

/-- A reader also takes a two-element array for a parameter and ignores members that it does not
know, though their names must denote texts. -/
def ofJson? : Json → Option Parameter
  | .array [key, value] => ofParts? key value
  | .object members =>
    if members.all (·.1.isSome) then
      match member? "key" members, member? "value" members with
      | some key, some value => ofParts? key value
      | _, _ => none
    else none
  | _ => none

end Parameter

namespace ParameterSet

def toJson (s : ParameterSet) : Json := .array (s.entries.map Parameter.toJson)

def ofJson? : Json → Option ParameterSet
  | .array elements => (elements.mapM Parameter.ofJson?).map ParameterSet.mk
  | _ => none

def ofJsonText? (text : String) : Option ParameterSet := (Json.parse? text).bind ofJson?

def compactJson (s : ParameterSet) : String := s.toJson.compact

def prettyJson (s : ParameterSet) : String := s.toJson.pretty 0

end ParameterSet

end LoginSession

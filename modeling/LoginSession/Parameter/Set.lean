import LoginSession.Parameter.Basic

namespace LoginSession

/-- A key may occur more than once, and readers take the last occurrence. -/
structure ParameterSet where
  entries : List Parameter := []
  deriving DecidableEq, Repr

namespace ParameterSet

def size (s : ParameterSet) : Nat := s.entries.length

def isEmpty (s : ParameterSet) : Bool := s.entries.isEmpty

def push (s : ParameterSet) (p : Parameter) : ParameterSet := ⟨s.entries ++ [p]⟩

def append (s : ParameterSet) (ps : List Parameter) : ParameterSet := ⟨s.entries ++ ps⟩

def keys (s : ParameterSet) : List String := s.entries.map (·.key)

def get? (s : ParameterSet) (key : String) : Option Value :=
  (s.entries.reverse.find? (·.key = key)).map (·.value)

end ParameterSet

abbrev ParameterMap := List (String × Value)

namespace ParameterMap

def insert (key : String) (value : Value) : ParameterMap → ParameterMap
  | [] => [(key, value)]
  | (k, v) :: rest =>
    if key < k then (key, value) :: (k, v) :: rest
    else if key = k then (key, value) :: rest
    else (k, v) :: insert key value rest

def get? (map : ParameterMap) (key : String) : Option Value := map.lookup key

end ParameterMap

def ParameterSet.toMap (s : ParameterSet) : ParameterMap :=
  s.entries.foldl (fun map p => ParameterMap.insert p.key p.value map) []

namespace ParameterSet

@[simp] theorem entries_push (s : ParameterSet) (p : Parameter) :
    (s.push p).entries = s.entries ++ [p] := rfl

@[simp] theorem entries_append (s : ParameterSet) (ps : List Parameter) :
    (s.append ps).entries = s.entries ++ ps := rfl

theorem get?_push (s : ParameterSet) (p : Parameter) (key : String) :
    (s.push p).get? key = if p.key = key then some p.value else s.get? key := by
  simp only [get?, entries_push, List.reverse_append, List.reverse_cons, List.reverse_nil,
    List.nil_append, List.singleton_append, List.find?_cons]
  by_cases h : p.key = key <;> simp [h]

end ParameterSet

end LoginSession

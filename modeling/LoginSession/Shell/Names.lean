import LoginSession.Host.Files
import LoginSession.Shell.Expansion

namespace LoginSession.Shell

open Host (Octets Files Path)

namespace Names

def closesBracket : Octets → Bool
  | [] | '/' :: _ => false
  | '\\' :: rest => skipEscaped rest
  | _ :: ']' :: _ => true
  | _ :: rest => closesBracket rest
where
  skipEscaped : Octets → Bool
    | [] | '/' :: _ => false
    | _ :: ']' :: _ => true
    | _ :: rest => closesBracket rest

structure Parts where
  before : Octets
  component : Octets
  after : Option Octets

/-- Backslashes keep their effect in a component, which is one only if something in it is special.
`before` and `component` are backwards. -/
def divide (special : Bool) (before component : Octets) : Octets → Option Parts
  | [] => if special then some ⟨before.reverse, component.reverse, none⟩ else none
  | '\\' :: '/' :: rest => slash ['\\', '/'] rest
  | '\\' :: c :: rest => divide special before (c :: '\\' :: component) rest
  | '/' :: rest => slash ['/'] rest
  | '[' :: rest =>
    let inside := match rest with
      | '!' :: inside => inside
      | inside => inside
    divide (special || closesBracket inside) before ('[' :: component) rest
  | c :: rest => divide (special || c = '*' || c = '?') before (c :: component) rest
where
  slash (text : Octets) (rest : Octets) : Option Parts :=
    if special then some ⟨before.reverse, component.reverse, some rest⟩
    else divide false (text.reverse ++ component ++ before) [] rest

def plain : Octets → Octets
  | '\\' :: c :: rest => c :: plain rest
  | c :: rest => c :: plain rest
  | [] => []

def isHidden (name : Octets) : Bool := name.head? = some '.'

/-- The names in a directory that a component of a pattern matches. Those that begin with a dot are
found only by one that does. -/
def inDirectory (files : Files) (directory : Path) (component : Octets) : List Octets :=
  let items := Pattern.ofText component
  let showsHidden := isHidden (plain component)
  (['.'] :: ['.', '.'] :: files.names directory).filter fun name =>
    (showsHidden || !isHidden name) && Pattern.accepts items name

def find (files : Files) (cwd : Path) : Nat → Octets → Octets → List Octets
  | 0, _, _ => []
  | fuel + 1, spelled, pattern =>
    match divide false [] [] pattern with
    | none =>
      let name := spelled ++ plain pattern
      if spelled.isEmpty then []
      else
        match files.resolve cwd name with
        | .ok (_, some _) => [name]
        | _ => []
    | some parts =>
      let spelled := spelled ++ plain parts.before
      match files.resolve cwd (if spelled.isEmpty then ['.'] else spelled) with
      | .ok (directory, some .directory) =>
        (inDirectory files directory parts.component).flatMap fun name =>
          match parts.after with
          | none => [spelled ++ name]
          | some after => find files cwd fuel (spelled ++ name ++ ['/']) after
      | _ => []

def sorted (names : List Octets) : List Octets := Variables.sortBy (· < ·) names

def mayMatch (marks : List Mark) : Bool :=
  marks.any fun
    | .char c _ => c = '*' || c = '?' || c = '['
    | .hold => false

def ofField (noGlob : Bool) (files : Files) (cwd : Path) (field : List Mark) : List Octets :=
  let text := Mark.text field
  if noGlob || !mayMatch field then [text]
  else
    let pattern := Mark.pattern field
    match sorted (find files cwd (pattern.length + 1) [] pattern) with
    | [] => [text]
    | names => names

end Names

def fieldsOf (s : State) (files : Files) (cwd : Path) (regions : List Region) : List Octets :=
  (Fields.ofRegions s.separators none regions).flatMap
    (Names.ofField (s.isOn .noGlob) files cwd)

end LoginSession.Shell

import LoginSession.Host.Octets

namespace LoginSession.Shell

open Host (Octets)

inductive Fallback where
  | useWord
  | assignWord
  | complain
  | useWordIfSet
  deriving DecidableEq, Repr

inductive RedirectKind where
  | input
  | output
  | replace
  | append
  | inputOutput
  | duplicate
  | document
  deriving DecidableEq, Repr

mutual

inductive Part where
  | text (s : Octets)
  | escaped (c : Char)
  | single (s : Octets)
  | double (parts : List Part)
  | parameter (name : Octets) (use : Use)
  | command (body : Command)
  | arithmetic (parts : List Part)

inductive Use where
  | plain
  | length
  | fallback (kind : Fallback) (colon : Bool) (word : List Part)
  | trim (suffix longest : Bool) (pattern : List Part)
  | bad

/-- The body of a here-document follows the line that asks for it; until it has been read its number
stands for it. -/
inductive Redirect where
  | mk (descriptor : Nat) (kind : RedirectKind) (target : List Part)
  | pending (descriptor document : Nat)

/-- Commands remember the line that diagnostics are to name. A loop goes on as long as its condition
holds, or `untilTrue`, as long as it fails. -/
inductive Command where
  | empty
  | simple (line : Nat) (assignments : List (Octets × List Part)) (words : List (List Part))
      (redirects : List Redirect)
  | redirected (line : Nat) (body : Command) (redirects : List Redirect)
  | subshell (line : Nat) (body : Command) (redirects : List Redirect)
  | background (line : Nat) (body : Command) (redirects : List Redirect)
  | pipeline (inBackground : Bool) (stages : List Command)
  | negated (body : Command)
  | both (first second : Command)
  | either (first second : Command)
  | sequence (first second : Command)
  | branch (condition consequence alternative : Command)
  | loop (untilTrue : Bool) (condition body : Command)
  | each (line : Nat) (name : Octets) (items : Option (List (List Part))) (body : Command)
  | choose (line : Nat) (subject : List Part) (arms : List (List (List Part) × Command))
  | define (name : Octets) (body : Command)

end

abbrev Word := List Part

instance : Inhabited Command := ⟨.empty⟩

instance : Inhabited Part := ⟨.text []⟩

abbrev Documents := List (Nat × Word)

mutual

def Part.settle (d : Documents) : Part → Part
  | .text s => .text s
  | .escaped c => .escaped c
  | .single s => .single s
  | .double parts => .double (settleParts d parts)
  | .parameter name use => .parameter name (use.settle d)
  | .command body => .command (body.settle d)
  | .arithmetic parts => .arithmetic (settleParts d parts)

def settleParts (d : Documents) : List Part → List Part
  | [] => []
  | part :: rest => part.settle d :: settleParts d rest

def settleWords (d : Documents) : List (List Part) → List (List Part)
  | [] => []
  | word :: rest => settleParts d word :: settleWords d rest

def settleAssignments (d : Documents) : List (Octets × List Part) → List (Octets × List Part)
  | [] => []
  | (name, word) :: rest => (name, settleParts d word) :: settleAssignments d rest

def Use.settle (d : Documents) : Use → Use
  | .plain => .plain
  | .length => .length
  | .fallback kind colon word => .fallback kind colon (settleParts d word)
  | .trim suffix longest pattern => .trim suffix longest (settleParts d pattern)
  | .bad => .bad

def Redirect.settle (d : Documents) : Redirect → Redirect
  | .mk descriptor kind target => .mk descriptor kind (settleParts d target)
  | .pending descriptor document => .mk descriptor .document ((d.lookup document).getD [])

def settleRedirects (d : Documents) : List Redirect → List Redirect
  | [] => []
  | redirect :: rest => redirect.settle d :: settleRedirects d rest

def settleAll (d : Documents) : List Command → List Command
  | [] => []
  | command :: rest => command.settle d :: settleAll d rest

def settleArms (d : Documents) :
    List (List (List Part) × Command) → List (List (List Part) × Command)
  | [] => []
  | (patterns, body) :: rest => (settleWords d patterns, body.settle d) :: settleArms d rest

def Command.settle (d : Documents) : Command → Command
  | .empty => .empty
  | .simple line assignments words redirects =>
    .simple line (settleAssignments d assignments) (settleWords d words)
      (settleRedirects d redirects)
  | .redirected line body redirects =>
    .redirected line (body.settle d) (settleRedirects d redirects)
  | .subshell line body redirects => .subshell line (body.settle d) (settleRedirects d redirects)
  | .background line body redirects =>
    .background line (body.settle d) (settleRedirects d redirects)
  | .pipeline inBackground stages => .pipeline inBackground (settleAll d stages)
  | .negated body => .negated (body.settle d)
  | .both first second => .both (first.settle d) (second.settle d)
  | .either first second => .either (first.settle d) (second.settle d)
  | .sequence first second => .sequence (first.settle d) (second.settle d)
  | .branch condition consequence alternative =>
    .branch (condition.settle d) (consequence.settle d) (alternative.settle d)
  | .loop untilTrue condition body => .loop untilTrue (condition.settle d) (body.settle d)
  | .each line name none body => .each line name none (body.settle d)
  | .each line name (some items) body =>
    .each line name (some (settleWords d items)) (body.settle d)
  | .choose line subject arms => .choose line (settleParts d subject) (settleArms d arms)
  | .define name body => .define name (body.settle d)

end

end LoginSession.Shell

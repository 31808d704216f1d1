import LoginSession.Utility.Quoting

namespace LoginSession.Utility

open Host (Octets)

namespace Options

/-- Whether an option has an argument; one that may have it needs an equals sign before it. After a
last option none is read any more. -/
inductive Takes where
  | nothing
  | something
  | perhaps
  | last
  deriving DecidableEq

/-- Options by their letters and by their names. A name leads to the letter that stands for the
option, which need not be one that may be written. -/
structure Table where
  letters : List (Char × Takes)
  names : List (String × Char × Takes) := []

structure Given where
  letter : Char
  argument : Option Octets := none
  after : Nat := 0

def Given.text (g : Given) : Octets := g.argument.getD []

structure Read where
  given : List Given
  operands : List Octets
  fault : Option Octets := none

def quotedName (name : Octets) : Octets := "option '--".toList ++ name ++ ['\'']

/-- The option that a name means: one of that name, or the only one that begins like it. -/
def findName (table : Table) (name : Octets) : Except Octets (Octets × Char × Takes) :=
  let named := table.names.map fun (full, what) => (full.toList, what)
  match named.find? (·.1 = name) with
  | some found => .ok found
  | none =>
    match named.filter fun (full, _) => name.isPrefixOf full with
    | [] => .error []
    | first :: others =>
      if others.all (·.2 = first.2) then .ok first
      else
        let list := (first :: others).flatMap fun (full, _) => " '--".toList ++ full ++ ['\'']
        .error (quotedName name ++ " is ambiguous; possibilities:".toList ++ list)

inductive Found where
  | options (given : List Given)
  | wanting (given : List Given) (letter : Char) (fault : Octets)
  | fault (given : List Given) (text : Octets)

def Found.atWord (after : Nat) : Found → Found
  | .options given => .options (given.map ({ · with after }))
  | .wanting given letter text => .wanting (given.map ({ · with after })) letter text
  | .fault given text => .fault (given.map ({ · with after })) text

def readName (table : Table) (text : Octets) : Found :=
  let name := text.takeWhile (· ≠ '=')
  let value? : Option Octets := match text.dropWhile (· ≠ '=') with
    | _ :: value => some value
    | [] => none
  match findName table name with
  | .error [] => .fault [] ("unrecognized option '--".toList ++ text ++ ['\''])
  | .error fault => .fault [] fault
  | .ok (full, letter, takes) =>
    match takes, value? with
    | .nothing, some _ => .fault [] (quotedName full ++ " doesn't allow an argument".toList)
    | .something, none | .last, none =>
      .wanting [] letter (quotedName full ++ " requires an argument".toList)
    | _, argument => .options [{ letter, argument }]

def readLetters (table : Table) (given : List Given) : Octets → Found
  | [] => .options given.reverse
  | c :: rest =>
    match table.letters.lookup c with
    | none => .fault given.reverse ("invalid option -- '".toList ++ [c, '\''])
    | some .nothing => readLetters table ({ letter := c } :: given) rest
    | some .perhaps =>
      .options ({ letter := c, argument := if rest.isEmpty then none else some rest } ::
        given).reverse
    | some .something | some .last =>
      if rest.isEmpty then
        .wanting given.reverse c ("option requires an argument -- '".toList ++ [c, '\''])
      else .options ({ letter := c, argument := some rest } :: given).reverse

def isLast (table : Table) (given : List Given) : Bool :=
  given.getLast?.any fun g => table.letters.lookup g.letter = some .last

/-- Reads options up to two dashes. Operands may stand among them if `mixed`; else the first one
ends them. -/
def readFrom (table : Table) (mixed : Bool) (given : List Given) (operands : List Octets) :
    List Octets → Read
  | [] => ⟨given, operands.reverse, none⟩
  | ['-', '-'] :: rest => ⟨given, operands.reverse ++ rest, none⟩
  | ('-' :: c :: letters) :: rest =>
    let found := if c = '-' then readName table letters else readLetters table [] (c :: letters)
    match found.atWord rest.length with
    | .options more =>
      if isLast table more then ⟨given ++ more, operands.reverse ++ rest, none⟩
      else readFrom table mixed (given ++ more) operands rest
    | .fault more text => ⟨given ++ more, operands.reverse, some text⟩
    | .wanting more letter fault =>
      match rest with
      | [] => ⟨given ++ more, operands.reverse, some fault⟩
      | argument :: rest =>
        let given := given ++ more ++ [{ letter, argument := some argument }]
        if isLast table given then ⟨given, operands.reverse ++ rest, none⟩
        else readFrom table mixed given operands rest
  | word :: rest =>
    if mixed then readFrom table mixed given (word :: operands) rest
    else ⟨given, operands.reverse ++ word :: rest, none⟩

def read (table : Table) (mixed : Bool) (words : List Octets) : Read :=
  readFrom table mixed [] [] words

end Options

end LoginSession.Utility

import LoginSession.Utility.Program

namespace LoginSession.Utility.Tr

open Host (Octets)
open Program (Circumstances)

def options : Options.Table where
  letters := "AcCdst".toList.map fun c => (c, .nothing)
  names :=
    [("complement", 'c', .nothing), ("delete", 'd', .nothing), ("squeeze-repeats", 's', .nothing),
     ("truncate-set1", 't', .nothing)]

def apply (r : Translate.Request) (letter : Char) : Translate.Request :=
  match letter with
  | 'c' | 'C' => { r with complement := true }
  | 'd' => { r with delete := true }
  | 's' => { r with squeeze := true }
  | 't' => { r with truncate := true }
  | _ => r

def countFault? (r : Translate.Request) (sets : List Octets) : Option Octets :=
  let least := if r.delete = r.squeeze then 2 else 1
  let most := if r.delete && !r.squeeze then 1 else 2
  match sets with
  | [] => some "missing operand".toList
  | sets =>
    if sets.length < least then
      let reason :=
        if r.squeeze then "both deleting and squeezing repeats." else "translating."
      some ("missing operand after ".toList ++ Quoting.phrase (sets.getLast?.getD []) ++
        "\nTwo strings must be given when ".toList ++ reason.toList)
    else if most < sets.length then
      let reason :=
        if sets.length = 2 then
          "\nOnly one string may be given when deleting without squeezing repeats."
        else ""
      some ("extra operand ".toList ++ Quoting.phrase ((sets.drop most).headD []) ++ reason.toList)
    else none

def readSets (first : Octets) (second : Option Octets) :
    List Octets × Except Octets (List Translate.Element × Option (List Translate.Element)) :=
  let (warnings, one) := Translate.readSet first
  match one, second with
  | .error fault, _ => (warnings, .error fault)
  | .ok one, none => (warnings, .ok (one, none))
  | .ok one, some text =>
    let (more, two) := Translate.readSet text
    (warnings ++ more, two.map fun two => (one, some two))

def run (name : Octets) (r : Translate.Request) (first : Octets) (second : Option Octets) :
    List Task :=
  let (warnings, sets) := readSets first second
  let table := do
    let (one, two) ← sets
    Translate.table r one two
  warnings.map (Program.say name) ++
    match table with
    | .error fault => Program.fail name fault 1
    | .ok table => [.pump { filter := .translating table none, inputs := [.standard] }]

def plan (c : Circumstances) : Program :=
  let read := Options.read options false c.arguments
  let r := (read.given.map (·.letter)).foldl apply {}
  let tasks := match read.fault, countFault? r read.operands with
    | some fault, _ | none, some fault => Program.refuse c.name fault 1
    | none, none => run c.name r (read.operands.headD []) (read.operands.drop 1).head?
  { name := c.name, tasks }

end LoginSession.Utility.Tr

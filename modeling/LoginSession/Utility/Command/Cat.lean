import LoginSession.Utility.Program

namespace LoginSession.Utility.Cat

open Host (Octets)
open Program (Circumstances)

def options : Options.Table where
  letters := "benstuvAET".toList.map fun c => (c, .nothing)
  names :=
    [("number-nonblank", 'b', .nothing), ("number", 'n', .nothing),
     ("squeeze-blank", 's', .nothing), ("show-nonprinting", 'v', .nothing),
     ("show-ends", 'E', .nothing), ("show-tabs", 'T', .nothing), ("show-all", 'A', .nothing)]

def apply (style : Listing.Style) (letter : Char) : Listing.Style :=
  match letter with
  | 'b' => { style with numbers := true, skipsBlank := true }
  | 'n' => { style with numbers := true }
  | 's' => { style with squeeze := true }
  | 'v' => { style with showHidden := true }
  | 'E' => { style with showEnds := true }
  | 'T' => { style with showTabs := true }
  | 'e' => { style with showHidden := true, showEnds := true }
  | 't' => { style with showHidden := true, showTabs := true }
  | 'A' => { style with showHidden := true, showEnds := true, showTabs := true }
  | _ => style

def plan (c : Circumstances) : Program :=
  let read := Options.read options true c.arguments
  let tasks := match read.fault with
    | some fault => Program.refuse c.name fault 1
    | none =>
      let style := (read.given.map (·.letter)).foldl apply {}
      [.needOutput, .pump {
        filter := .listing { style }, inputs := Program.inputsOf read.operands }]
  { name := c.name, tasks }

end LoginSession.Utility.Cat

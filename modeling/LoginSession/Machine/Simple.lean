import LoginSession.Machine.Builtin
import LoginSession.Machine.Turn
import LoginSession.Shell.Reader

namespace LoginSession.Shell.Turn

open Host (Octets)

/-- The fields of one more word. After a command that takes assignments, a word that looks like one
stays whole. -/
def expandWord (t : Turn) (fields : List Octets) (word : Word) : Expanding (List Octets) := do
  let takesAssignments := match (leading t.state fields).words with
    | name :: _ => isAssigning name && (t.state.functions.lookup name).isNone
    | [] => false
  if takesAssignments && (assignment? word).isSome then return [← expandAssignment word]
  else return fieldsOf (← Expanding.state) t.host.files t.cwd (← expandRegions word)

def applyTargets (t : Turn) (targets : List Target) : Turn × Saved × Option Octets :=
  match targets, t.process? with
  | [], _ | _, none => (t, [], none)
  | targets, some process =>
    let (r, fault) := redirectAll (t.state.isOn .noClobber) { host := t.host, process } targets
    ({ t with host := r.host }.setDescriptors r.process.descriptors, r.saved, fault)

/-- Becomes a program if nothing follows in this process, else has a child do so. -/
def external (t : Turn) (words : List Octets) (searchPath : Octets) (last : Bool) : Turn :=
  let frame := Frame.execute words t.state.vars.environment (some searchPath)
  if last && !t.state.hasTraps then t.push [frame] else t.forkAndWait [frame]

def call (t : Turn) (body : Command) (arguments : List Octets) (tested : Bool) : Turn :=
  let s := t.state
  let state := { s with arguments, options := {}, loops := 0 }
  { t with state }.push
    [.evaluate body tested false, .leaveFunction s.arguments s.options s.loops]

def builtin (t : Turn) (name : Octets) (arguments : List Octets) (special tested : Bool) : Turn :=
  let old := t.state.commandName
  let reply : Reply := {
    host := t.host, pid := t.pid, tested, state := { t.state with commandName := some name } }
  let reply := ((Builtin.ofName? name).getD fun r _ => r) reply arguments
  let emit (descriptor : Nat) (text command : Octets) : List Frame :=
    if text.isEmpty then [] else [.emit descriptor (Octets.toBytes text) command]
  let ended : List Frame :=
    if reply.isGivenUp && special then [.exit .fault] else reply.frames
  let frames : List Frame :=
    emit 2 reply.complaints [] ++ emit 1 reply.output name ++ ended ++
      [.restoreCommandName old, .finishBuiltin (!special)]
  { t with host := reply.host, state := { reply.state with status := reply.status } }.push frames

def pathFrom (path : Octets) (place : Nat) : Octets :=
  Text.joinPieces ':' ((Text.pieces ':' path).drop place)

def runCommand (t : Turn) (fields : List Octets) (tested last : Bool) : Turn :=
  let command := leading t.state fields
  match command.words with
  | [] => t.setStatus t.state.substitutionStatus
  | name :: arguments =>
    let otherPath := if command.standardPath then some Builtin.standardPath else none
    let (place, state) :=
      locate t.state t.host.files t.cwd command.viaCommand otherPath name
    let t := { t with state }
    let path := otherPath.getD t.state.searchPath
    match place with
    | .function body => t.call body arguments tested
    | .builtin => t.builtin name arguments (isSpecialBuiltin (fields.headD [])) tested
    | .program place => t.external command.words (pathFrom path place) last
    | .path => t.external command.words path last
    | .missing e => (t.setStatus 127).complain (name ++ ": ".toList ++ notRunText e)

def traceText (p : Preparation) (lead : Octets) : Octets :=
  let assigned := p.assigned.map fun (name, value) => name ++ '=' :: value
  lead ++ Text.joinPieces ' ' (assigned ++ p.fields) ++ ['\n']

def traceDescriptor (saved : Saved) : Option Nat :=
  match saved.filter (·.1 = 2) |>.getLast? with
  | some (_, kept) => kept
  | none => some 2

def showAndRun (t : Turn) (p : Preparation) (tested last : Bool) : Turn :=
  if !t.state.isOn .trace || p.isTraced then t.runCommand p.fields tested last
  else
    let lead := (t.state.value? "PS4".toList).getD []
    let expand := match readPrompt lead with
      | some word => expandQuoted word
      | none => pure lead
    t.expanding (.prepare p tested last) expand fun t lead =>
      let shown : List Frame := (traceDescriptor (p.saved.getD [])).toList.map fun n =>
        .emit n (Octets.toBytes (traceText p lead)) []
      t.push (shown ++ [.prepare { p with isTraced := true } tested last])

/-- Assignments before a command last no longer than the command, unless it is a special one. -/
def isScoped (fields : List Octets) : Bool :=
  match fields with
  | [] => false
  | name :: _ => !isSpecialBuiltin name

def isReplacing (s : State) (fields : List Octets) : Bool :=
  match (leading s fields).words with
  | name :: _ :: _ => name = "exec".toList
  | _ => false

def prepareAssignments (t : Turn) (p : Preparation) (tested last : Bool) :
    List (Octets × Word) → Turn
  | [] => t.showAndRun { p with assignments := [] } tested last
  | (name, word) :: rest =>
    let retry : Frame := .prepare { p with assignments := (name, word) :: rest } tested last
    t.expanding retry (expandValue word) fun t value =>
      let exported := isReplacing t.state p.fields
      let assigned :=
        if isScoped p.fields then t.state.localize name (some value) true
        else
          t.state.change name (some value) fun x => { x with exported := x.exported || exported }
      match assigned with
      | .ok state =>
        prepareAssignments { t with state } { p with assigned := p.assigned ++ [(name, value)] }
          tested last rest
      | .error fault => t.fail fault

def redirectSimple (t : Turn) (p : Preparation) (tested last : Bool) : Turn :=
  let isScoped := isScoped p.fields
  let t := if isScoped then { t with state.scopes := [] :: t.state.scopes } else t
  let (t, saved, fault) := t.applyTargets p.targets
  let undo : List Frame := if saved.isEmpty then [] else [.restoreDescriptors saved]
  let ends : List Frame := (if isScoped then [.leaveScope] else []) ++ [.checkFailure tested]
  match fault with
  | some text =>
    let special := isSpecialBuiltin (p.fields.headD [])
    ((t.setStatus 2).push ((if special then [.exit .fault] else []) ++ undo ++ ends)).complain text
  | none =>
    let stays := (leading t.state p.fields).words = ["exec".toList]
    let t :=
      if stays then (t.setDescriptors (confirmAll t.descriptors saved)).push ends
      else t.push (undo ++ ends)
    t.prepareAssignments { p with saved := some (if stays then [] else saved) } tested last
      p.assignments

def prepareTargets (t : Turn) (p : Preparation) (tested last : Bool) : List Redirect → Turn
  | [] => t.redirectSimple { p with redirects := [] } tested last
  | redirect :: rest =>
    let retry : Frame := .prepare { p with redirects := redirect :: rest } tested last
    t.expanding retry (expandTarget redirect) fun t target =>
      prepareTargets t { p with targets := p.targets ++ [target] } tested last rest

def prepareWords (t : Turn) (p : Preparation) (tested last : Bool) : List Word → Turn
  | [] => t.prepareTargets { p with words := [] } tested last p.redirects
  | word :: rest =>
    let retry : Frame := .prepare { p with words := word :: rest } tested last
    t.expanding retry (t.expandWord p.fields word) fun t fields =>
      prepareWords t { p with fields := p.fields ++ fields } tested last rest

/-- The words are expanded one after another, then the redirections are made, then the assignments,
and only then is it looked up what the command is. Goes on from where this was left. -/
def prepare (t : Turn) (p : Preparation) (tested last : Bool) : Turn :=
  match p.saved with
  | none => t.prepareWords p tested last p.words
  | some _ => t.prepareAssignments p tested last p.assignments

def simple (t : Turn) (line : Nat) (assignments : List (Octets × Word)) (words : List Word)
    (redirects : List Redirect) (tested last : Bool) : Turn :=
  let state := { t.state with line, substitutionStatus := 0 }
  { t with state }.prepare { words, redirects, assignments } tested last

end LoginSession.Shell.Turn

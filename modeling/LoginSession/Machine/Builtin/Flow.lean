import LoginSession.Machine.Builtin.Naming

namespace LoginSession.Shell.Builtin

open Host (Octets)

/-- More loops than there are cannot be left. -/
def skipLoops (skip : Nat → Skip) : Builtin := fun r words =>
  match words with
  | [] => go r 1
  | word :: _ =>
    match State.count? word with
    | some (n + 1) => go r (n + 1)
    | _ => r.giveUp (State.illegalNumber word)
where
  go (r : Reply) (n : Nat) : Reply :=
    let n := min n r.state.loops
    if n = 0 then r else { r with state.skip := some (skip n) }

def leaveFunction : Builtin := fun r words =>
  match words with
  | [] => { r with state.skip := some (.return false), status := r.state.status }
  | word :: _ =>
    match State.count? word with
    | some status => { r with state.skip := some (.return true), status }
    | none => r.giveUp (State.illegalNumber word)

def exit : Builtin := fun r words =>
  let ending : List Frame := [.exit .request]
  match words with
  | [] => { r with status := r.state.status, frames := ending }
  | word :: _ =>
    match State.count? word with
    | some status => { r with status, frames := ending, state.savedStatus := some status }
    | none => r.giveUp (State.illegalNumber word)

def eval : Builtin := fun r words =>
  if words.isEmpty then r
  else
    let text := Text.joinPieces ' ' words
    { r with status := r.state.status,
             frames := [.script .text { rest := text } false r.tested false] }

def scriptFile (r : Reply) (name : Octets) : Option Octets :=
  if name.contains '/' then some name
  else
    let spelled := (Text.pieces ':' r.state.searchPath).map fun directory => spelledIn directory name
    spelled.find? fun file =>
      match r.host.files.resolve r.cwd file with
      | .ok (_, some (.file _)) | .ok (_, some (.program _)) => true
      | _ => false

def source : Builtin :=
  withoutOptions fun r words =>
    match words, r.process? with
    | name :: _, some p =>
      match scriptFile r name with
      | none => r.giveUp (name ++ ": not found".toList)
      | some file =>
        match r.host.openFile p file .read with
        | .error e => r.giveUp (openFault false file e)
        | .ok (host, handle) =>
          let (descriptors, number) := p.descriptors.addOwn handle
          { r with
            host := host.update r.pid ({ · with descriptors })
            status := r.state.status
            state.commandName := some file
            frames := [.readScript number { rest := [] } false, .leaveScript (some number)] }
    | _, _ => r

def exec : Builtin := fun r words =>
  if words.isEmpty then r
  else
    { r with frames :=
        [.execute words r.state.vars.environment (some r.state.searchPath)] }

end LoginSession.Shell.Builtin
